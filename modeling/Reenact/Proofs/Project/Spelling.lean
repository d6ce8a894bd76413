import Mathlib.Logic.Relation
import Reenact.Project.Path

/-!
# Ways to write a path

One path can be written in many ways: slashes may be repeated, dots may stand between slashes, and
slashes and dots may follow at the end. `SamePath` is the least equivalence of texts that says so,
and does not read them in any order. What a path is read as are its components.

**The law** (`samePath_iff`): two texts write the same path exactly when they have the same
components.
-/

namespace Reenact.Path

/-- The second text writes the same path with a slash or a dot less. -/
inductive Shortens : List Char → List Char → Prop
  | slash (front rest : List Char) : Shortens (front ++ '/' :: '/' :: rest) (front ++ '/' :: rest)
  | dot (front rest : List Char) :
      Shortens (front ++ '/' :: '.' :: '/' :: rest) (front ++ '/' :: rest)
  /-- A slash alone is the root, and stays. -/
  | lastSlash {front : List Char} (more : front ≠ []) : Shortens (front ++ ['/']) front
  | lastDot (front : List Char) : Shortens (front ++ ['/', '.']) (front ++ ['/'])

/-- Both texts write the same path. -/
def SamePath : List Char → List Char → Prop := Relation.EqvGen Shortens

/-- What a name in a directory is written as. Nothing stands between them if the directory is
written as nothing or ends in a slash already. -/
def below (directory name : List Char) : List Char :=
  if directory = [] ∨ directory.getLast? = some '/' then directory ++ name
  else directory ++ '/' :: name

variable {a b c front rest directory name : List Char}

theorem SamePath.refl (a : List Char) : SamePath a a := Relation.EqvGen.refl a

theorem SamePath.symm (h : SamePath a b) : SamePath b a := Relation.EqvGen.symm _ _ h

theorem SamePath.trans (first : SamePath a b) (second : SamePath b c) : SamePath a c :=
  Relation.EqvGen.trans _ _ _ first second

theorem Shortens.samePath (h : Shortens a b) : SamePath a b := .rel _ _ h

/-! ## Components -/

theorem segments_ne_nil (path : List Char) : segments path ≠ [] := by
  fun_cases segments path <;> exact List.cons_ne_nil _ _

/-- A character other than a slash belongs to the first segment. -/
theorem segments_cons {c : Char} (other : c ≠ '/') (rest : List Char) : ∃ first others,
    segments rest = first :: others ∧ segments (c :: rest) = (c :: first) :: others := by
  obtain ⟨first, others, eq⟩ := List.exists_cons_of_ne_nil (segments_ne_nil rest)
  refine ⟨first, others, eq, ?_⟩
  rw [segments, eq]
  exact other

theorem segments_eq_splitOn (path : List Char) : segments path = path.splitOn '/' := by
  induction path with
  | nil => rfl
  | cons c rest ih =>
    have step : (c :: rest).splitOn '/' =
        if c = '/' then [] :: rest.splitOn '/' else (rest.splitOn '/').modifyHead (List.cons c) := by
      simp [List.splitOn, List.splitOnP_cons_eq_if_modifyHead]
    rw [step, ← ih]
    split
    · rename_i slash
      rw [slash, segments]
    · rename_i other
      obtain ⟨first, others, eq, eq'⟩ := segments_cons other rest
      rw [eq', eq]
      rfl

theorem segments_append (front rest : List Char) :
    segments (front ++ '/' :: rest) = segments front ++ segments rest := by
  simp only [segments_eq_splitOn]
  exact List.splitOnP_append_cons front rest rfl

theorem segments_of_no_slash (noSlash : '/' ∉ name) : segments name = [name] := by
  rw [segments_eq_splitOn]
  refine List.splitOnP_eq_singleton fun c mem => beq_eq_false_iff_ne.2 ?_
  rintro rfl
  exact noSlash mem

/-- What follows behind a list does not matter to how it begins. -/
theorem head?_append_of_ne_nil {α : Type} {l : List α} (more : l ≠ []) (m : List α) :
    (l ++ m).head? = l.head? := by
  obtain ⟨first, others, rfl⟩ := List.exists_cons_of_ne_nil more
  rfl

/-- The component that tells an absolute path, or a relative one that begins with a dot. -/
def lead (path : List Char) : List (List Char) :=
  if path.head? = some '/' then [['/']]
  else if (segments path).head? = some ['.'] then [['.']]
  else []

theorem components_eq (path : List Char) :
    components path = lead path ++ (segments path).filter isComponent := rfl

/-- What comes after a slash does not matter to how a path begins. -/
theorem lead_append (front rest : List Char) : lead (front ++ '/' :: rest) = lead (front ++ ['/']) := by
  have first : (front ++ '/' :: rest).head? = (front ++ ['/']).head? := by
    cases front <;> rfl
  have segment (rest : List Char) :
      (segments (front ++ '/' :: rest)).head? = (segments front).head? := by
    rw [segments_append, head?_append_of_ne_nil (segments_ne_nil front)]
  simp only [lead, first, segment]

/-- The components in front of a slash and those behind it. -/
theorem components_append (front rest : List Char) : components (front ++ '/' :: rest) =
    components (front ++ ['/']) ++ (segments rest).filter isComponent := by
  have none : (segments []).filter isComponent = [] := rfl
  rw [components_eq, components_eq, lead_append, segments_append, segments_append, List.filter_append,
    List.filter_append, none, List.append_nil, List.append_assoc]

/-- A slash at the end does not matter, unless it is alone. -/
theorem components_lastSlash (more : front ≠ []) : components (front ++ ['/']) = components front := by
  have none : (segments []).filter isComponent = [] := rfl
  have same : lead (front ++ ['/']) = lead front := by
    have first : (front ++ ['/']).head? = front.head? := head?_append_of_ne_nil more _
    have segment : (segments (front ++ ['/'])).head? = (segments front).head? := by
      rw [segments_append, head?_append_of_ne_nil (segments_ne_nil front)]
    simp only [lead, first, segment]
  rw [components_eq, same, segments_append, List.filter_append, none, List.append_nil, components_eq]

theorem Shortens.components_eq (h : Shortens a b) : components a = components b := by
  cases h with
  | slash front rest =>
    have dropped : (segments ('/' :: rest)).filter isComponent = (segments rest).filter isComponent :=
      rfl
    rw [components_append, dropped, ← components_append]
  | dot front rest =>
    have dropped : (segments ('.' :: '/' :: rest)).filter isComponent =
        (segments rest).filter isComponent := rfl
    rw [components_append, dropped, ← components_append]
  | lastSlash more => exact components_lastSlash more
  | lastDot front => exact (components_append front ['.']).trans (List.append_nil _)

/-- Texts that write the same path have the same components. -/
theorem SamePath.components_eq (h : SamePath a b) : components a = components b := by
  induction h with
  | rel _ _ step => exact step.components_eq
  | refl => rfl
  | symm _ _ _ ih => exact ih.symm
  | trans _ _ _ _ _ first second => exact first.trans second

/-- Only the empty text has no component. -/
theorem ne_nil_of_components (some : components a ≠ []) : a ≠ [] := by
  rintro rfl
  exact some rfl

theorem components_ne_nil (more : a ≠ []) : components a ≠ [] := by
  cases a with
  | nil => exact absurd rfl more
  | cons c rest =>
    rw [Path.components_eq, lead]
    split
    · exact List.cons_ne_nil _ _
    · rename_i relative
      split
      · exact List.cons_ne_nil _ _
      · rename_i noDot
        -- the first segment has a character, and is no dot
        have other : c ≠ '/' := fun slash => relative (congrArg Option.some slash)
        obtain ⟨segment, others, -, eq⟩ := segments_cons other rest
        have counts : isComponent (c :: segment) = true := by
          rw [eq] at noDot
          simpa [isComponent] using noDot
        rw [eq, List.filter_cons_of_pos counts]
        exact List.cons_ne_nil _ _

/-! ## One way to write each path -/

/-- A path that is written with no more slashes and dots than needed. -/
def written (parts : List (List Char)) : List Char := parts.foldl below []

/-- Whatever follows behind a slash, the same path stands in front. -/
theorem SamePath.append (h : SamePath a b) (rest : List Char) :
    SamePath (a ++ '/' :: rest) (b ++ '/' :: rest) := by
  have slash (front : List Char) :
      SamePath (front ++ '/' :: '/' :: rest) (front ++ '/' :: rest) := (Shortens.slash ..).samePath
  induction h with
  | rel _ _ step =>
    cases step with
    | slash front tail =>
      simpa using (Shortens.slash front (tail ++ '/' :: rest)).samePath
    | dot front tail =>
      simpa using (Shortens.dot front (tail ++ '/' :: rest)).samePath
    | lastSlash => simpa using slash _
    | lastDot front =>
      have dropped : SamePath (front ++ '/' :: '.' :: '/' :: rest) (front ++ '/' :: rest) :=
        (Shortens.dot ..).samePath
      simpa using dropped.trans (slash front).symm
  | refl => exact .refl _
  | symm _ _ _ ih => exact ih.symm
  | trans _ _ _ _ _ first second => exact first.trans second

/-- A name below a directory, with a slash between them in any case. -/
theorem samePath_below (more : directory ≠ []) (name : List Char) :
    SamePath (directory ++ '/' :: name) (below directory name) := by
  unfold below
  split
  · rename_i ends
    obtain ⟨front, rfl⟩ := List.getLast?_eq_some_iff.1 (ends.resolve_left more)
    simpa using (Shortens.slash front name).samePath
  · exact .refl _

/-- The last component of a path that is written below a directory. -/
theorem components_below (isPart : isComponent name = true) (noSlash : '/' ∉ name)
    (directory : List Char) :
    components (below directory name) = components directory ++ [name] := by
  have one : (segments name).filter isComponent = [name] := by
    rw [segments_of_no_slash noSlash, List.filter_cons_of_pos isPart]
    rfl
  by_cases start : directory = []
  · have notFirst : name.head? ≠ some '/' := fun first =>
      noSlash (List.mem_of_mem_head? first)
    have notDot : (segments name).head? ≠ some ['.'] := by
      rw [segments_of_no_slash noSlash]
      rintro ⟨⟩
      cases isPart
    rw [start, below, if_pos (.inl rfl), List.nil_append, Path.components_eq, one, lead,
      if_neg notFirst, if_neg notDot]
    rfl
  · rw [← (samePath_below start name).components_eq, components_append, one,
      components_lastSlash start]

/-- Where a slash occurs, one is the last. -/
theorem exists_last_slash {path : List Char} (mem : '/' ∈ path) :
    ∃ front name, path = front ++ '/' :: name ∧ '/' ∉ name := by
  obtain ⟨back, rest, eq, none⟩ := List.eq_append_cons_of_mem (List.mem_reverse.2 mem)
  refine ⟨rest.reverse, back.reverse, ?_, fun mem => none (List.mem_reverse.1 mem)⟩
  rw [← List.reverse_reverse path, eq]
  simp

/-- Between slashes stands a component, nothing, or a dot. -/
theorem eq_nil_or_eq_dot (noPart : isComponent name = false) : name = [] ∨ name = ['.'] := by
  by_cases empty : name = []
  · exact .inl empty
  · exact .inr (by simpa [isComponent, empty] using noPart)

/-- If a directory can be written with no more slashes and dots than needed, so can what is below
it. -/
theorem SamePath.written_below (h : SamePath directory (written (components directory)))
    (more : directory ≠ []) (isPart : isComponent name = true) (noSlash : '/' ∉ name) :
    SamePath (below directory name) (written (components (below directory name))) := by
  have last : written (components (below directory name)) =
      below (written (components directory)) name := by
    rw [components_below isPart noSlash, written, List.foldl_append]
    rfl
  have more' : written (components directory) ≠ [] :=
    ne_nil_of_components (h.components_eq ▸ components_ne_nil more)
  rw [last]
  exact (samePath_below more name).symm.trans ((h.append name).trans (samePath_below more' name))

/-- Every path can be written with no more slashes and dots than needed. -/
theorem samePath_written (path : List Char) : SamePath path (written (components path)) := by
  -- by the length, from the last slash on
  induction size : path.length using Nat.strongRecOn generalizing path with
  | _ n shorter =>
    by_cases slash : '/' ∈ path
    · obtain ⟨front, name, rfl, noSlash⟩ := exists_last_slash slash
      have less : front.length < n := by
        rw [← size, List.length_append, List.length_cons]
        omega
      -- what stands in front of the name, with its slash if that is the root
      obtain ⟨directory, more, ends, same, ih⟩ : ∃ directory, directory ≠ [] ∧
          SamePath (front ++ ['/']) directory ∧ SamePath (front ++ '/' :: name) (below directory name) ∧
          SamePath directory (written (components directory)) := by
        by_cases root : front = []
        · subst root
          exact ⟨['/'], List.cons_ne_nil _ _, .refl _, .refl _, .refl _⟩
        · exact ⟨front, root, (Shortens.lastSlash root).samePath, samePath_below root name,
            shorter _ less front rfl⟩
      cases isPart : isComponent name with
      | true =>
        rw [same.components_eq]
        exact same.trans (ih.written_below more isPart noSlash)
      | false =>
        have dropped : SamePath (front ++ '/' :: name) directory := by
          rcases eq_nil_or_eq_dot isPart with rfl | rfl
          · exact ends
          · exact (Shortens.lastDot front).samePath.trans ends
        rw [dropped.components_eq]
        exact dropped.trans ih
    · have alone : written (components path) = path := by
        cases isPart : isComponent path with
        | true =>
          have one : components path = [path] := components_below isPart slash []
          rw [one]
          rfl
        | false => rcases eq_nil_or_eq_dot isPart with rfl | rfl <;> rfl
      rw [alone]
      exact .refl path

/-- Two texts write the same path exactly when they have the same components. -/
theorem samePath_iff : SamePath a b ↔ components a = components b := by
  refine ⟨SamePath.components_eq, fun same => ?_⟩
  have written := samePath_written b
  rw [← same] at written
  exact (samePath_written a).trans written.symm

/-! ## Below a directory -/

/-- The path leads to the directory, or to something below it. -/
def IsBelow (directory path : List Char) : Prop := ∃ rest, SamePath path (below directory rest)

theorem no_slash_of_mem_segments {path segment : List Char} (mem : segment ∈ segments path) :
    '/' ∉ segment := by
  induction path generalizing segment with
  | nil =>
    obtain rfl := List.mem_singleton.1 mem
    exact List.not_mem_nil
  | cons c rest ih =>
    by_cases slash : c = '/'
    · rw [slash, segments] at mem
      rcases List.mem_cons.1 mem with rfl | mem
      · exact List.not_mem_nil
      · exact ih mem
    · obtain ⟨first, others, eq, eq'⟩ := segments_cons slash rest
      rw [eq'] at mem
      rw [eq] at ih
      rcases List.mem_cons.1 mem with rfl | mem
      · exact List.not_mem_cons_of_ne_of_not_mem (Ne.symm slash) (ih List.mem_cons_self)
      · exact ih (List.mem_cons_of_mem _ mem)

/-- Only the first component can be a slash or a dot. -/
theorem isComponent_of_components {path : List Char} {parts : List (List Char)} (more : directory ≠ [])
    (eq : components path = components directory ++ parts) :
    ∀ part ∈ parts, isComponent part = true ∧ '/' ∉ part := by
  intro part mem
  have later : part ∈ (components path).tail := by
    obtain ⟨first, others, front⟩ := List.exists_cons_of_ne_nil (components_ne_nil more)
    rw [eq, front]
    exact List.mem_append_right _ mem
  have filtered : part ∈ (segments path).filter isComponent := by
    rw [components_eq, lead] at later
    split at later
    · exact later
    · split at later
      · exact later
      · exact List.mem_of_mem_tail later
  obtain ⟨inside, isPart⟩ := List.mem_filter.1 filtered
  exact ⟨isPart, no_slash_of_mem_segments inside⟩

/-- What is written behind a directory adds its segments to the components. -/
theorem components_below_text (more : directory ≠ []) (rest : List Char) :
    components (below directory rest) =
      components directory ++ (segments rest).filter isComponent := by
  rw [← (samePath_below more rest).components_eq, components_append, components_lastSlash more]

/-- A path is below a directory exactly when its components begin with those of the directory. -/
theorem isBelow_iff {path : List Char} :
    IsBelow directory path ↔ components directory <+: components path := by
  by_cases empty : directory = []
  · rw [empty]
    exact ⟨fun _ => List.nil_prefix, fun _ => ⟨path, .refl path⟩⟩
  constructor
  · rintro ⟨rest, same⟩
    rw [same.components_eq, components_below_text empty]
    exact List.prefix_append ..
  · rintro ⟨parts, eq⟩
    have plain := isComponent_of_components empty eq.symm
    -- the components that follow, with slashes between them
    refine ⟨['/'].intercalate parts, samePath_iff.2 ?_⟩
    rw [components_below_text empty, ← eq]
    congr 1
    by_cases none : parts = []
    · rw [none]
      rfl
    · rw [segments_eq_splitOn, List.splitOn_intercalate '/' (fun part mem => (plain part mem).2) none]
      exact (List.filter_eq_self.2 fun part mem => (plain part mem).1).symm

end Reenact.Path
