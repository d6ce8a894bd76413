import Reenact.Proofs.Project.Spelling
import Reenact.Project.Basic

/-!
# The modules of source files

The module of a source file below the root of a project is named by the directories on the way and
the file, except that the package file of a directory stands for the directory. How the root and the
path are written does not matter (`SamePath`).

**The law** (`namesModules`): every source file has that module, files that are not below the root
have none, and two files share a module only where one is the package file of a directory and the
other stands beside the directory, under its name.
-/

namespace Reenact

namespace Path

/-- A name of which a module path can be made: some characters, without slashes and dots. -/
structure IsPlain (name : List Char) : Prop where
  ne_nil : name ≠ []
  noSlash : '/' ∉ name
  noDot : '.' ∉ name

/-- The name of a package file, without its ending. -/
def packageName : String := "__init__"

/-- What source files end in. -/
def ending : List Char := ".py".toList

/-- What a source file is written as: its name with the ending, in directories below a root. -/
def source (root : String) (directories : List String) (name : String) : List Char :=
  below ((directories.map String.toList).foldl below root.toList) (name.toList ++ ending)

/-- The names in the module path of a source file: the directories and the file itself, unless it is
a package file. -/
def namesOf (directories : List String) (name : String) : List String :=
  if name = packageName then directories else directories ++ [name]

/-- The module with those names, if there are any. -/
def dotted? (names : List String) : Option String :=
  if names = [] then none else some (".".intercalate names)

variable {root path : String} {directories names names' : List String} {name : String} {part : List Char}

/-! ## Names -/

theorem IsPlain.ne_dot (h : IsPlain part) : part ≠ ['.'] := by
  rintro rfl
  exact h.noDot List.mem_cons_self

theorem IsPlain.isComponent (h : IsPlain part) : isComponent part = true := by
  simp [Path.isComponent, h.ne_nil, h.ne_dot]

/-- The last dot is the one in front of what has no dot. -/
theorem beforeLastDot?_append {rest : List Char} (noDot : '.' ∉ rest) (front : List Char) :
    beforeLastDot? (front ++ '.' :: rest) = some front := by
  have none : beforeLastDot? rest = none := by
    induction rest with
    | nil => rfl
    | cons c rest ih =>
      obtain ⟨first, others⟩ : '.' ≠ c ∧ '.' ∉ rest := by simpa using noDot
      rw [beforeLastDot?, ih others]
      exact if_neg first.symm
  induction front with
  | nil =>
    rw [List.nil_append, beforeLastDot?, none]
    rfl
  | cons c front ih => rw [List.cons_append, beforeLastDot?, ih]

/-- Without its ending, a source file has its name. -/
theorem stem_append_ending (plain : IsPlain part) : stem (part ++ ending) = part := by
  have notParent : part ++ ending ≠ ['.', '.'] := by
    intro same
    have last := congrArg List.getLast? same
    simp [ending] at last
  have before : beforeLastDot? (part ++ ending) = some part := beforeLastDot?_append (by decide) part
  rw [stem, if_neg notParent, before]
  split
  · rename_i none
    cases none
  · rename_i none
    exact absurd (Option.some.inj none) plain.ne_nil
  · rename_i dot
    exact absurd (Option.some.inj dot) plain.ne_dot
  · rename_i front _ _ _ same
    exact (Option.some.inj same).symm

theorem withoutExtension_concat (front : List (List Char)) (last : List Char) :
    withoutExtension (front ++ [last]) = front ++ [stem last] := by
  induction front with
  | nil => rfl
  | cons first rest ih =>
    obtain ⟨second, others, eq⟩ : ∃ second others, rest ++ [last] = second :: others :=
      List.exists_cons_of_ne_nil (by simp)
    rw [List.cons_append, eq, withoutExtension, ← eq, ih]
    · rfl
    · simp

/-! ## Source files -/

theorem components_foldl_below {parts : List (List Char)}
    (plain : ∀ part ∈ parts, Path.isComponent part = true ∧ '/' ∉ part) (directory : List Char) :
    components (parts.foldl below directory) = components directory ++ parts := by
  induction parts generalizing directory with
  | nil => exact (List.append_nil _).symm
  | cons part rest ih =>
    obtain ⟨⟨isPart, noSlash⟩, others⟩ := List.forall_mem_cons.1 plain
    rw [List.foldl_cons, ih others, components_below isPart noSlash, List.append_assoc,
      List.singleton_append]

/-- The components of a source file: those of the root, the directories and the name with its
ending. -/
theorem components_source (plain : ∀ part ∈ directories ++ [name], IsPlain part.toList) :
    components (source root directories name) =
      components root.toList ++ (directories.map String.toList ++ [name.toList ++ ending]) := by
  have file : Path.isComponent (name.toList ++ ending) = true := by
    cases name.toList <;> simp [Path.isComponent, ending]
  have noSlash : '/' ∉ name.toList ++ ending := by
    have own := (plain name (List.mem_append_right _ List.mem_cons_self)).noSlash
    have none : '/' ∉ ending := by decide
    simp [own, none]
  have inside : ∀ part ∈ directories.map String.toList,
      Path.isComponent part = true ∧ '/' ∉ part := by
    intro part mem
    obtain ⟨directory, given, rfl⟩ := List.mem_map.1 mem
    have own := plain directory (List.mem_append_left _ given)
    exact ⟨own.isComponent, own.noSlash⟩
  rw [source, components_below file noSlash, components_foldl_below inside, List.append_assoc]

theorem relativeTo?_of_components {root path : List Char} {parts : List (List Char)}
    (eq : components path = components root ++ parts) : relativeTo? root path = some parts := by
  have front : (components root).isPrefixOf (components path) = true := by
    rw [List.isPrefixOf_iff_prefix, eq]
    exact List.prefix_append ..
  rw [relativeTo?, if_pos front, eq, List.drop_left]

/-- The names of a source file that is given by its components. -/
theorem moduleNames_source (plain : IsPlain name.toList) :
    moduleNames (directories.map String.toList ++ [name.toList ++ ending]) =
      (namesOf directories name).map String.toList := by
  have isPackage : (directories.map String.toList ++ [name.toList]).getLast? = some packageStem ↔
      name = packageName := by
    rw [List.getLast?_concat, Option.some_inj]
    exact String.toList_inj
  rw [moduleNames, withoutExtension_concat, stem_append_ending plain]
  by_cases package : name = packageName
  · rw [if_pos (isPackage.2 package), namesOf, if_pos package, List.dropLast_concat]
  · rw [if_neg (mt isPackage.1 package), namesOf, if_neg package, List.map_append]
    rfl

theorem module?_of_components (plain : IsPlain name.toList)
    (eq : components path.toList =
      components root.toList ++ (directories.map String.toList ++ [name.toList ++ ending])) :
    module? root path = dotted? (namesOf directories name) := by
  rw [module?, relativeTo?_of_components eq]
  dsimp only
  rw [moduleNames_source plain, dotted?]
  cases namesOf directories name with
  | nil => rfl
  | cons first rest => simp

/-- Names without dots can be told from the module. -/
theorem dotted?_inj (plain : ∀ part ∈ names, IsPlain part.toList)
    (plain' : ∀ part ∈ names', IsPlain part.toList) (same : dotted? names = dotted? names') :
    names = names' := by
  have split {names : List String} (plain : ∀ part ∈ names, IsPlain part.toList)
      (some : names ≠ []) :
      (".".intercalate names).toList.splitOn '.' = names.map String.toList := by
    rw [String.toList_intercalate]
    refine List.splitOn_intercalate '.' (fun part mem => ?_) (by simpa using some)
    obtain ⟨name, given, rfl⟩ := List.mem_map.1 mem
    exact (plain name given).noDot
  unfold dotted? at same
  split at same <;> split at same
  · rename_i none none'
    rw [none, none']
  · cases same
  · cases same
  · rename_i some some'
    have text := congrArg (fun s => s.toList.splitOn '.') (Option.some.inj same)
    rw [split plain some, split plain' some'] at text
    exact (List.map_inj_right fun _ _ => String.toList_inj.1).1 text

end Path

namespace Project

open Reenact.Path (SamePath components)

/-- The path is, in some way, that of the source file with that name in directories below the root.
-/
structure IsSource (p : Project) (path : String) (directories : List String) (name : String) : Prop where
  plain : ∀ part ∈ directories ++ [name], Path.IsPlain part.toList
  samePath : SamePath path.toList (Path.source p.root directories name)

/-- The first path is that of the package file of a directory, and the second one that of a source
file beside the directory, under its name. -/
def IsPackageBeside (p : Project) (path path' : String) : Prop :=
  ∃ directories name, name ≠ Path.packageName ∧
    p.IsSource path (directories ++ [name]) Path.packageName ∧ p.IsSource path' directories name

/-- Files below the root of the project have modules, and can be told from them. -/
structure NamesModules (p : Project) : Prop where
  names : ∀ path directories name, p.IsSource path directories name →
    p.moduleOfFile path = Path.dotted? (Path.namesOf directories name)
  contains : ∀ path, p.containsFile path = true ↔ Path.IsBelow p.root.toList path.toList
  outside : ∀ path, ¬Path.IsBelow p.root.toList path.toList → p.moduleOfFile path = none
  /-- How the root and the path are written does not matter. -/
  samePath : ∀ root path path', SamePath root.toList p.root.toList →
    SamePath path.toList path'.toList →
      ({ p with root := root } : Project).moduleOfFile path = p.moduleOfFile path'
  distinct : ∀ path path' directories directories' name name', p.IsSource path directories name →
    p.IsSource path' directories' name' →
      (p.moduleOfFile path = p.moduleOfFile path' ↔
        SamePath path.toList path'.toList ∨ p.IsPackageBeside path path' ∨ p.IsPackageBeside path' path)

variable {p : Project} {path path' : String} {directories directories' : List String}
  {name name' : String}

theorem IsSource.components_eq (h : p.IsSource path directories name) :
    components path.toList = components p.root.toList ++
      (directories.map String.toList ++ [name.toList ++ Path.ending]) :=
  h.samePath.components_eq.trans (Path.components_source h.plain)

theorem IsSource.moduleOfFile_eq (h : p.IsSource path directories name) :
    p.moduleOfFile path = Path.dotted? (Path.namesOf directories name) :=
  Path.module?_of_components (h.plain name (List.mem_append_right _ List.mem_cons_self)) h.components_eq

theorem IsSource.plain_of_mem_namesOf (h : p.IsSource path directories name) {part : String}
    (mem : part ∈ Path.namesOf directories name) : Path.IsPlain part.toList := by
  unfold Path.namesOf at mem
  split at mem
  · exact h.plain part (List.mem_append_left _ mem)
  · exact h.plain part mem

/-- Source files with the same directories and name have the same path. -/
theorem IsSource.samePath_of_eq (h : p.IsSource path directories name)
    (h' : p.IsSource path' directories name) : SamePath path.toList path'.toList :=
  h.samePath.trans h'.samePath.symm

theorem IsPackageBeside.moduleOfFile_eq (h : p.IsPackageBeside path path') :
    p.moduleOfFile path = p.moduleOfFile path' := by
  obtain ⟨directories, name, other, package, beside⟩ := h
  rw [package.moduleOfFile_eq, beside.moduleOfFile_eq, Path.namesOf, if_pos rfl, Path.namesOf,
    if_neg other]

theorem moduleOfFile_congr_components {root : String}
    (roots : components root.toList = components p.root.toList)
    (paths : components path.toList = components path'.toList) :
    ({ p with root := root } : Project).moduleOfFile path = p.moduleOfFile path' := by
  have relative : Path.relativeTo? root.toList path.toList =
      Path.relativeTo? p.root.toList path'.toList := by
    rw [Path.relativeTo?, roots, paths, Path.relativeTo?]
  unfold moduleOfFile Path.module?
  rw [relative]

/-- Source files with one module are the same, or one is a package file and the other beside it. -/
theorem IsSource.samePath_or_beside (h : p.IsSource path directories name)
    (h' : p.IsSource path' directories' name') (same : p.moduleOfFile path = p.moduleOfFile path') :
    SamePath path.toList path'.toList ∨ p.IsPackageBeside path path' ∨
      p.IsPackageBeside path' path := by
  rw [h.moduleOfFile_eq, h'.moduleOfFile_eq] at same
  have names := Path.dotted?_inj (fun _ mem => h.plain_of_mem_namesOf mem)
    (fun _ mem => h'.plain_of_mem_namesOf mem) same
  unfold Path.namesOf at names
  split at names <;> split at names
  · rename_i package package'
    subst package package' names
    exact .inl (h.samePath_of_eq h')
  · rename_i package other
    subst package names
    exact .inr (.inl ⟨directories', name', other, h, h'⟩)
  · rename_i other package
    subst package names
    exact .inr (.inr ⟨directories, name, other, h', h⟩)
  · obtain ⟨rfl, last⟩ := List.append_inj' names rfl
    obtain rfl := List.singleton_inj.1 last
    exact .inl (h.samePath_of_eq h')

/-- In every project the module of a source file tells which file it is, up to package files. -/
theorem namesModules (p : Project) : p.NamesModules where
  names _ _ _ h := h.moduleOfFile_eq
  contains path := by
    unfold containsFile Path.isWithin Path.relativeTo?
    rw [Path.isBelow_iff, ← List.isPrefixOf_iff_prefix]
    dsimp only
    split <;> simp [*]
  outside path outside := by
    rw [Path.isBelow_iff, ← List.isPrefixOf_iff_prefix] at outside
    unfold moduleOfFile Path.module? Path.relativeTo?
    dsimp only
    rw [if_neg outside]
  samePath _ _ _ roots paths := moduleOfFile_congr_components roots.components_eq paths.components_eq
  distinct path path' _ _ _ _ h h' := by
    refine ⟨h.samePath_or_beside h', ?_⟩
    rintro (same | beside | beside)
    · exact moduleOfFile_congr_components (p := p) rfl same.components_eq
    · exact beside.moduleOfFile_eq
    · exact beside.moduleOfFile_eq.symm

/-- A package file and the file beside its directory share their module, however they are written.
-/
example : (Project.empty "/work//app/").moduleOfFile "/work/./app/pkg/__init__.py/" = some "pkg" ∧
    (Project.empty "/work//app/").moduleOfFile "/work/app/pkg.py" = some "pkg" := by
  decide +kernel

end Project

end Reenact
