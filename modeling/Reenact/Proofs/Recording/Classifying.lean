import Mathlib.Data.List.Forall2
import Reenact.Recording.Values

/-!
# What values are recorded as

A value is recorded as an object of a kind, from those of the values that it holds that become its
parts. Which kind and which values these are is told from the value and the classes of the project
(`Project.Classifies`): generators come first, then instances of project classes, then builtin values
and known library types. All other values are unknown, and so is an instance of a known library type
that lacks an attribute.

**The law** (`Project.classifies_build`): each value is recorded as what it is classified as, and its
parts are the objects of those values, in order.
-/

namespace Reenact

/-! ## Kinds and parts -/

/-- It is not known how code makes the value again: it is neither a builtin one nor an instance of a
library type with all attributes that the constructor takes. -/
inductive Value.IsOpaque : Value → Prop
  | exception (header : Header) (args : List Value) : IsOpaque (.exception header args false)
  | object (header : Header) : IsOpaque (.object header)
  | other (header : Header) : IsOpaque (.other header)
  | library {header : Header} {attributes : List (String × Value)}
      (unknown : LibraryType.find? header.module header.typeName = none) :
      IsOpaque (.library header attributes)
  | incomplete {header : Header} {attributes : List (String × Value)} {type : LibraryType}
      {name : String} (known : LibraryType.find? header.module header.typeName = some type)
      (mem : name ∈ type.arguments) (missing : attributes.lookup name = none) :
      IsOpaque (.library header attributes)

namespace Project

/-- The value is recorded as an object of that kind, from those of the values that it holds. -/
inductive Classifies (p : Project) : Value → List Value → ObjectKind → Prop
  | generator (header : Header) (frame : FrameId) :
      Classifies p (.generator header frame) [] (.generator none [])
  | user {v : Value} {cls : ClassId} (notGenerator : ∀ header frame, v ≠ .generator header frame)
      (found : p.findClass v.typeName v.module = some cls) : Classifies p v [] (.user cls none [])
  | literal {header : Header} (foreign : p.findClass header.typeName header.module = none)
      (value : Literal) :
      Classifies p (.literal header value) [] (.immutable value.code value.imports)
  | sequence {header : Header} (foreign : p.findClass header.typeName header.module = none)
      (shape : Shape) (items : List Value) (contained : List ObjectId) :
      Classifies p (.sequence header shape items) items (.sequence shape contained)
  | map {header : Header} (foreign : p.findClass header.typeName header.module = none)
      (entries : List (Value × Value)) (mapping : List (ObjectId × ObjectId)) :
      Classifies p (.map header entries) (entries.flatMap fun entry => [entry.1, entry.2])
        (.map mapping)
  | exception {header : Header} (foreign : p.findClass header.typeName header.module = none)
      (args : List Value) (contained : List ObjectId) :
      Classifies p (.exception header args true) args (.exception contained)
  | library {header : Header} {attributes : List (String × Value)} {type : LibraryType}
      {args : List Value} (foreign : p.findClass header.typeName header.module = none)
      (known : LibraryType.find? header.module header.typeName = some type)
      (complete : List.Forall₂ (fun name arg => attributes.lookup name = some arg) type.arguments args)
      (contained : List ObjectId) :
      Classifies p (.library header attributes) args
        (.library type.format contained (.single type.neededImport))
  | unknown {v : Value} (foreign : p.findClass v.typeName v.module = none) (isOpaque : v.IsOpaque) :
      Classifies p v [] (.unknown v.qualifiedType)

end Project

/-! ## Entries and attributes -/

/-- Keys and values taken in turn are the ones they were taken from. -/
theorem Outline.flatMap_pairUp {entries : List (Value × Value)} {ids : List ObjectId}
    (count : ids.length = (entries.flatMap fun entry => [entry.1, entry.2]).length) :
    ((pairUp ids).flatMap fun entry => [entry.1, entry.2]) = ids := by
  induction entries generalizing ids with
  | nil =>
    obtain rfl := List.length_eq_zero_iff.1 count
    rfl
  | cons entry rest ih =>
    obtain _ | ⟨key, _ | ⟨value, ids⟩⟩ := ids
    · cases count
    · cases count
    · have others := ih (Nat.succ.inj (Nat.succ.inj count))
      rw [pairUp, List.flatMap_cons, others]
      rfl

namespace Value

variable {header : Header} {attributes : List (String × Value)} {names : List String}

/-- The attributes of those names, in order, if they are all there. -/
theorem attributesNamed_eq_some_iff {args : List Value} :
    (library header attributes).attributesNamed names = some args ↔
      List.Forall₂ (fun name arg => attributes.lookup name = some arg) names args := by
  induction names generalizing args with
  | nil =>
    rw [attributesNamed, List.forall₂_nil_left_iff, Option.some_inj]
    exact eq_comm
  | cons name rest ih =>
    rw [attributesNamed, List.forall₂_cons_left_iff]
    constructor
    · intro found
      split at found
      · rename_i value others first later
        cases found
        exact ⟨value, others, first, ih.1 later, rfl⟩
      · cases found
    · rintro ⟨value, others, first, later, rfl⟩
      rw [ih.2 later]
      simp only [attributeNamed, first]

/-- One of them is not there. -/
theorem attributesNamed_eq_none_iff :
    (library header attributes).attributesNamed names = none ↔
      ∃ name ∈ names, attributes.lookup name = none := by
  induction names with
  | nil => exact iff_of_false (Option.some_ne_none _) fun ⟨_, mem, _⟩ => List.not_mem_nil mem
  | cons name rest ih =>
    rw [List.exists_mem_cons_iff, ← ih]
    cases first : attributes.lookup name with
    | none => simp only [attributesNamed, attributeNamed, first, true_or]
    | some value =>
      cases later : (library header attributes).attributesNamed rest with
      | none => simp only [attributesNamed, attributeNamed, first, later, or_true]
      | some values =>
        simp only [attributesNamed, attributeNamed, first, later, reduceCtorEq, or_self]

end Value

/-! ## The outline of a value -/

namespace Project

variable {p : Project} {v : Value} {items : List Value} {kind : ObjectKind}

theorem plainOutline_of_isOpaque (isOpaque : v.IsOpaque) :
    v.plainOutline = .whole (.unknown v.qualifiedType) := by
  cases isOpaque with
  | exception | object | other => rfl
  | library unknown => simp only [Value.plainOutline, unknown]
  | @incomplete header attributes type name known mem missing =>
    have none : (Value.library header attributes).attributesNamed type.arguments = none :=
      Value.attributesNamed_eq_none_iff.2 ⟨name, mem, missing⟩
    simp only [Value.plainOutline, known, none]

theorem plainOutline_library {header : Header} {attributes : List (String × Value)}
    {type : LibraryType} {args : List Value}
    (known : LibraryType.find? header.module header.typeName = some type)
    (complete : List.Forall₂ (fun name arg => attributes.lookup name = some arg) type.arguments
      args) :
    (Value.library header attributes).plainOutline = .library type args := by
  simp only [Value.plainOutline, known, Value.attributesNamed_eq_some_iff.2 complete]

theorem outline_of_user {cls : ClassId} (notGenerator : ∀ header frame, v ≠ .generator header frame)
    (found : p.findClass v.typeName v.module = some cls) :
    p.outline v = .whole (.user cls none []) := by
  cases v with
  | generator header frame => exact absurd rfl (notGenerator header frame)
  | _ => simp only [outline, found]

theorem outline_of_foreign (notGenerator : ∀ header frame, v ≠ .generator header frame)
    (foreign : p.findClass v.typeName v.module = none) : p.outline v = v.plainOutline := by
  cases v with
  | generator header frame => exact absurd rfl (notGenerator header frame)
  | _ => simp only [outline, foreign]

/-- A value is classified in one way only. -/
theorem Classifies.parts_eq (h : p.Classifies v items kind) : (p.outline v).parts = items := by
  cases h with
  | generator => rfl
  | user notGenerator found => rw [outline_of_user notGenerator found]; rfl
  | literal foreign | sequence foreign | map foreign | exception foreign =>
    rw [outline_of_foreign (by rintro _ _ ⟨⟩) foreign]
    rfl
  | library foreign known complete =>
    rw [outline_of_foreign (by rintro _ _ ⟨⟩) foreign, plainOutline_library known complete]
    rfl
  | unknown foreign isOpaque =>
    rw [outline_of_foreign (by rintro _ _ rfl; cases isOpaque) foreign,
      plainOutline_of_isOpaque isOpaque]
    rfl

/-- What is neither a generator nor an instance of a project class. -/
theorem classifies_plainOutline (notGenerator : ∀ header frame, v ≠ .generator header frame)
    (foreign : p.findClass v.typeName v.module = none) {ids : List ObjectId}
    (count : ids.length = v.plainOutline.parts.length) :
    p.Classifies v v.plainOutline.parts (v.plainOutline.build ids) ∧
      (v.plainOutline.build ids).parts = ids := by
  have bare (none : v.plainOutline.parts = []) : [] = ids := by
    rw [none] at count
    exact (List.length_eq_zero_iff.1 count).symm
  have unknown (isOpaque : v.IsOpaque) : p.Classifies v v.plainOutline.parts
      (v.plainOutline.build ids) ∧ (v.plainOutline.build ids).parts = ids := by
    rw [plainOutline_of_isOpaque isOpaque] at bare ⊢
    exact ⟨.unknown foreign isOpaque, bare rfl⟩
  cases v with
  | generator header frame => exact absurd rfl (notGenerator header frame)
  | literal header value => exact ⟨.literal foreign value, bare rfl⟩
  | sequence header shape items => exact ⟨.sequence foreign shape items ids, rfl⟩
  | map header entries => exact ⟨.map foreign entries _, Outline.flatMap_pairUp count⟩
  | exception header args isBuiltin =>
    cases isBuiltin with
    | true => exact ⟨.exception foreign args ids, rfl⟩
    | false => exact unknown (.exception header args)
  | object header => exact unknown (.object header)
  | other header => exact unknown (.other header)
  | library header attributes =>
    cases found : LibraryType.find? header.module header.typeName with
    | none => exact unknown (.library found)
    | some type =>
      cases named : (Value.library header attributes).attributesNamed type.arguments with
      | none =>
        obtain ⟨name, mem, missing⟩ := Value.attributesNamed_eq_none_iff.1 named
        exact unknown (.incomplete found mem missing)
      | some args =>
        have complete := Value.attributesNamed_eq_some_iff.1 named
        rw [plainOutline_library found complete]
        exact ⟨.library foreign found complete ids, rfl⟩

/-- Each value is recorded as what it is classified as, from as many objects as it has parts. -/
theorem classifies_build (p : Project) (v : Value) {ids : List ObjectId}
    (count : ids.length = (p.outline v).parts.length) :
    p.Classifies v (p.outline v).parts ((p.outline v).build ids) ∧
      ((p.outline v).build ids).parts = ids := by
  by_cases generator : ∃ header frame, v = .generator header frame
  · obtain ⟨header, frame, rfl⟩ := generator
    exact ⟨.generator header frame, (List.length_eq_zero_iff.1 count).symm⟩
  have notGenerator (header : Header) (frame : FrameId) : v ≠ .generator header frame :=
    fun same => generator ⟨header, frame, same⟩
  cases found : p.findClass v.typeName v.module with
  | some cls =>
    rw [outline_of_user notGenerator found] at count ⊢
    exact ⟨.user notGenerator found, (List.length_eq_zero_iff.1 count).symm⟩
  | none =>
    rw [outline_of_foreign notGenerator found] at count ⊢
    exact classifies_plainOutline notGenerator found count

end Project

end Reenact
