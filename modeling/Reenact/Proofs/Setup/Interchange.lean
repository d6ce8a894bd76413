import Reenact.Proofs.Recording.Content
import Reenact.Proofs.Setup.Nesting

/-!
# Objects that stand for each other

Objects with the same content may differ in their numbers and in how much they share. Neither shows
in code that names nothing: such code is written from what is alike and from the code of the parts
(`writeDefinition_congr`). Imports are not compared where a library type brings them along, but the
format of the type tells them (`ObjectKind.IsOfKnownType.imports_eq`).

**The law** (`standsFor_of_hasSameContent`): code can make both of two objects with the same content
in a reachable recording, or neither, and the code is the same for both.
-/

namespace Reenact

/-! ## Library types -/

/-- No two known library types have one format. -/
theorem LibraryType.eq_of_format {s t : LibraryType} (first : s ∈ known) (second : t ∈ known)
    (same : s.format = t.format) : s = t := by
  have all : ∀ s ∈ known, ∀ t ∈ known, s.format = t.format → s = t := by decide
  exact all s first t second same

/-- Instances of known library types with one format have the same imports. -/
theorem ObjectKind.IsOfKnownType.imports_eq {format : String} {as bs : List ObjectId}
    {imports imports' : ImportSet} (h : (library format as imports).IsOfKnownType)
    (h' : (library format bs imports').IsOfKnownType) : imports = imports' := by
  obtain ⟨type, known, written, brings⟩ := h
  obtain ⟨type', known', written', brings'⟩ := h'
  obtain rfl := LibraryType.eq_of_format known known' (written.symm.trans written')
  rw [brings, brings']

theorem Object.IsLike.typeImport?_eq {x y : Object} (h : x.IsLike y) :
    x.typeImport? = y.typeImport? := by
  rw [typeImport?, typeImport?, h.typeName, h.module]

namespace Setup

variable {p : Project} {r : Recording} {names : Naming} {write : Writer}

/-! ## Code from the code of parts -/

section Congruence

variable {as bs : List ObjectId} (codes : List.Forall₂ (fun a b => write a = write b) as bs)

include codes

theorem writeList_congr : writeList write as = writeList write bs := by
  rw [writeList, writeList, mapM_eq_of_forall₂ codes]

theorem writeSequence_congr (shape : Shape) :
    writeSequence write shape as = writeSequence write shape bs := by
  rw [writeSequence, writeSequence, writeList_congr codes, codes.length_eq]

end Congruence

/-- Entries are written alike when their keys and values, taken in turn, are. -/
theorem mapM_writeEntry_congr {as bs : List (ObjectId × ObjectId)}
    (codes : List.Forall₂ (fun a b => write a = write b) (ObjectKind.map as).parts
      (ObjectKind.map bs).parts) : as.mapM (writeEntry write) = bs.mapM (writeEntry write) := by
  refine mapM_eq_of_forall₂ ?_
  induction as generalizing bs with
  | nil =>
    obtain _ | ⟨entry, rest⟩ := bs
    · exact .nil
    · cases codes
  | cons entry as ih =>
    obtain _ | ⟨entry', bs⟩ := bs
    · cases codes
    · obtain _ | ⟨key, _ | ⟨value, others⟩⟩ := codes
      refine .cons ?_ (ih others)
      rw [writeEntry, writeEntry, key, value]

/-- Alike objects whose parts have the same code have the same code. -/
theorem writeDefinition_congr (built : r.IsBuilt) {a b : ObjectId} {x y : Object}
    (left : r.object? a = some x) (right : r.object? b = some y) (like : x.IsLike y)
    (codes : List.Forall₂ (fun s t => write s = write t) x.parts y.parts) :
    writeDefinition p r names write a = writeDefinition p r names write b := by
  have typeX := (built.built left).type
  have typeY := (built.built right).type
  obtain ⟨kind, kind', leftKind, rightKind⟩ : ∃ k l, x.kind = k ∧ y.kind = l := ⟨_, _, rfl, rfl⟩
  have alike := like.kind
  simp only [Object.parts, leftKind, rightKind] at alike codes typeX typeY
  unfold writeDefinition
  rw [Recording.object_eq_ok.2 left, Recording.object_eq_ok.2 right]
  simp only [bind, Except.bind, leftKind, rightKind]
  cases alike with
  | immutable => rfl
  | sequence shape => exact writeSequence_congr codes shape
  | map =>
    dsimp only
    rw [mapM_writeEntry_congr codes]
  | exception as bs =>
    have codes : List.Forall₂ _ as bs := codes
    dsimp only
    rw [writeList_congr codes, like.typeName, like.typeImport?_eq]
  | library format as bs imports imports' =>
    have codes : List.Forall₂ _ as bs := codes
    dsimp only
    rw [writeList_congr codes, typeX.imports_eq typeY]

/-! ## The same content -/

variable {a b : ObjectId}

/-- Objects with the same content have the same code, however deep it nests. -/
theorem constructWithin_eq_of_same (built : r.IsBuilt) (same : r.hasSameContent a b) (depth : Nat) :
    constructWithin p r .empty depth a = constructWithin p r .empty depth b := by
  refine built.hasSameContent_induction (P := fun a b => ∀ depth,
    constructWithin p r .empty depth a = constructWithin p r .empty depth b) (fun _ _ => rfl)
    (fun left right like codes depth => ?_) same depth
  cases depth with
  | zero =>
    -- nothing has a name, and so nothing is written
    rfl
  | succ depth =>
    rw [constructWithin_succ rfl, constructWithin_succ rfl]
    exact writeDefinition_congr built left right like (codes.imp fun _ _ both => both.2 depth)

theorem isConstructible_eq_of_same (built : r.IsBuilt) (same : r.hasSameContent a b) :
    r.isConstructible a = r.isConstructible b := by
  refine built.hasSameContent_induction (P := fun a b => r.isConstructible a = r.isConstructible b)
    (fun _ => rfl) (fun {a b x y} left right like parts => ?_) same
  have all : x.kind.parts.all r.isConstructible = y.kind.parts.all r.isConstructible := by
    have each := map_eq_of_forall₂ (parts.imp fun _ _ both => both.2)
    simpa [Object.parts] using congrArg (List.all · id) each
  rw [built.isConstructible_eq, built.isConstructible_eq, Recording.isConstructibleBy,
    Recording.isConstructibleBy, left, right, Option.map_some, Option.map_some]
  have alike := like.kind
  generalize x.kind = kind at alike all
  generalize y.kind = kind' at alike all
  cases alike with
  | immutable => rfl
  | sequence | map | exception | library => exact all

/-- What code makes of one object it makes of the other. -/
structure StandsFor (p : Project) (r : Recording) (a b : ObjectId) : Prop where
  /-- Code can make both or neither. -/
  constructible : r.isConstructible a = r.isConstructible b
  /-- The same text with the same imports makes them, with a gap in both or in neither; or there is
  no code for either. -/
  code : construct p r .empty a = construct p r .empty b
  /-- The code nests equally deep. -/
  within : ∀ depth, constructWithin p r .empty depth a = constructWithin p r .empty depth b

/-- In every recording that operations lead to, objects with the same content stand for each other
in code. -/
theorem standsFor_of_hasSameContent {r : Recording} (reached : r.IsReachable) (p : Project)
    {a b : ObjectId} (same : r.hasSameContent a b = true) : StandsFor p r a b where
  constructible := isConstructible_eq_of_same reached.isBuilt same
  code := constructWithin_eq_of_same reached.isBuilt same _
  within := constructWithin_eq_of_same reached.isBuilt same

/-! Pairs of elements of a document: in one of them both elements are one value, in the other they
are not. -/

namespace Elements

def tag : Value := .literal ⟨.observed 1, "str", builtinModule, []⟩ (.text "b")

def absent : Value := .literal ⟨.observed 2, "NoneType", builtinModule, []⟩ .none

def element (handle : Nat) : Value :=
  .library ⟨.observed handle, "Element", "xml.dom.minidom", []⟩
    [("tagName", tag), ("namespaceURI", absent), ("prefix", absent)]

def pair (handle : Nat) (items : List Value) : Value :=
  .sequence ⟨.observed handle, "tuple", builtinModule, []⟩ .tuple items

def recording : Recording :=
  ((Session.start (.empty "/p") ⟨0⟩).performAll
    [.serialize (pair 4 [element 3, element 3]),
      .serialize (pair 7 [element 5, element 6])]).recording

end Elements

theorem standsFor_of_hasSameContent_elements :
    Elements.recording.IsReachable ∧ Elements.recording.hasSameContent ⟨3⟩ ⟨6⟩ = true ∧
      StandsFor (.empty "/p") Elements.recording ⟨3⟩ ⟨6⟩ := by
  have reached : Elements.recording.IsReachable := Recording.isReachable_performAll ..
  have same : Elements.recording.hasSameContent ⟨3⟩ ⟨6⟩ = true := by decide +kernel
  exact ⟨reached, same, standsFor_of_hasSameContent reached (.empty "/p") same⟩

example : (construct (.empty "/p") Elements.recording .empty ⟨6⟩).toOption =
    some ⟨"(Element('b', None, None), Element('b', None, None))",
      .single (.member "xml.dom.minidom" "Element"), false⟩ := by decide +kernel

end Setup

end Reenact
