import Reenact.Proofs.Recording.Parts
import Reenact.Proofs.Recording.TwoRuns
import Reenact.Proofs.Setup.Passing

/-!
# Printing values

A session records each value once and refers to it by number from then on, and `construct` follows the
numbers. `Value.print` does without all that: it writes a value by recursion on the value itself, and
what is met twice is written twice.

As long as a handle stands for one value, the object of a handle is made from the objects of the handles
of its parts (`Recording.Depicts`). Recording more values keeps that, and what is done later with objects
does not concern values that are printed.

**The law** (`construct_serialize`): code for a recorded value is the printed value. It has no gap.
-/

namespace Reenact

namespace Value

/-! ## Direct printing -/

mutual

/-- The code of a value, written part by part. -/
def print : Value → Snippet
  | literal _ value => .withImports value.code value.imports
  | sequence _ shape items =>
    ((Snippet.join ", " (printAll items)).wrap (shape.format items.length)).addImports
      shape.import?.toList
  | map _ entries => (Snippet.join ", " (printEntries entries)).surround "\x7b" "\x7d"
  | exception header args _ =>
    ((Snippet.join ", " (printAll args)).surround (header.typeName ++ "(") ")").addImports
      (if header.module = builtinModule ∨ header.module = "" then []
        else [.member header.module header.typeName])
  | library header attributes =>
    match LibraryType.find? header.module header.typeName with
    | none => .gap header.typeName
    | some type =>
      match type.arguments.mapM fun name => (printAttributes attributes).lookup name with
      | none => .gap header.typeName
      | some codes => ((Snippet.join ", " codes).wrap type.format).addImports [type.neededImport]
  | generator header _ | object header | other header => .gap header.typeName

def printAll : List Value → List Snippet
  | [] => []
  | v :: rest => v.print :: printAll rest

/-- A key, a colon and a value for each entry. -/
def printEntries : List (Value × Value) → List Snippet
  | [] => []
  | (key, value) :: rest => key.print.followedBy ": " value.print :: printEntries rest

def printAttributes : List (String × Value) → List (String × Snippet)
  | [] => []
  | (name, value) :: rest => (name, value.print) :: printAttributes rest

end

theorem printAll_eq_map (values : List Value) : printAll values = values.map print := by
  induction values with
  | nil => rfl
  | cons v rest ih => rw [printAll, ih, List.map_cons]

theorem printEntries_eq_map (entries : List (Value × Value)) :
    printEntries entries =
      entries.map fun entry => entry.1.print.followedBy ": " entry.2.print := by
  induction entries with
  | nil => rfl
  | cons entry rest ih => rw [printEntries, ih, List.map_cons]

theorem lookup_printAttributes (attributes : List (String × Value)) (name : String) :
    (printAttributes attributes).lookup name = (attributes.lookup name).map print := by
  induction attributes with
  | nil => rfl
  | cons first rest ih =>
    rw [printAttributes, List.lookup_cons, List.lookup_cons, ih]
    cases name == first.1 <;> rfl

/-- The code of attributes that are all there. -/
theorem mapM_lookup_printAttributes {header : Header} {attributes : List (String × Value)}
    {names : List String} {args : List Value}
    (complete : (library header attributes).attributesNamed names = some args) :
    (names.mapM fun name => (printAttributes attributes).lookup name) = some (args.map print) := by
  induction names generalizing args with
  | nil =>
    cases complete
    rfl
  | cons name rest ih =>
    simp only [attributesNamed] at complete
    split at complete
    · rename_i value values first others
      cases complete
      have first : attributes.lookup name = some value := first
      rw [List.mapM_cons, lookup_printAttributes, first, ih others]
      rfl
    · cases complete

/-! ## Values that are printed -/

/-- A value out of builtin types and complete library types. Neither it nor a part of it has the type
of a project class. -/
inductive IsPlain (p : Project) : Value → Prop
  | literal {header : Header} {value : Literal}
      (foreign : p.findClass header.typeName header.module = none) :
      IsPlain p (literal header value)
  | sequence {header : Header} {shape : Shape} {items : List Value}
      (foreign : p.findClass header.typeName header.module = none)
      (parts : ∀ w ∈ items, IsPlain p w) : IsPlain p (sequence header shape items)
  | map {header : Header} {entries : List (Value × Value)}
      (foreign : p.findClass header.typeName header.module = none)
      (keys : ∀ entry ∈ entries, IsPlain p entry.1)
      (values : ∀ entry ∈ entries, IsPlain p entry.2) : IsPlain p (map header entries)
  | exception {header : Header} {args : List Value}
      (foreign : p.findClass header.typeName header.module = none)
      (parts : ∀ w ∈ args, IsPlain p w) : IsPlain p (exception header args true)
  | library {header : Header} {attributes : List (String × Value)} {type : LibraryType}
      {args : List Value} (foreign : p.findClass header.typeName header.module = none)
      (isKnown : LibraryType.find? header.module header.typeName = some type)
      (complete : (library header attributes).attributesNamed type.arguments = some args)
      (parts : ∀ w ∈ args, IsPlain p w) : IsPlain p (library header attributes)

/-- The value is the other one, or held by it, by what it holds, and so on. -/
def Holds : Value → Value → Prop := Relation.ReflTransGen fun v w => w ∈ v.held

/-- Among the values, and all that they hold, a handle stands for one value only. -/
def TellApart (values : List Value) : Prop :=
  ∀ a ∈ values, ∀ b ∈ values, ∀ v w, a.Holds v → b.Holds w → v.handle = w.handle → v = w

namespace IsPlain

variable {p : Project} {v : Value}

theorem outline_eq (plain : v.IsPlain p) : p.outline v = v.plainOutline := by
  cases plain with
  | literal foreign | sequence foreign | map foreign | exception foreign | library foreign =>
    simp only [Project.outline, typeName, module, header, foreign]

theorem parts (plain : v.IsPlain p) : ∀ w ∈ (p.outline v).parts, w.IsPlain p := by
  intro w mem
  rw [plain.outline_eq] at mem
  cases plain with
  | literal => exact (List.not_mem_nil mem).elim
  | sequence _ parts | exception _ parts => exact parts w mem
  | map _ keys values =>
    obtain ⟨entry, inside, mem⟩ := List.mem_flatMap.1 mem
    rcases List.mem_cons.1 mem with rfl | mem
    · exact keys entry inside
    · obtain rfl := List.mem_singleton.1 mem
      exact values entry inside
  | library _ isKnown complete parts =>
    simp only [plainOutline, isKnown, complete] at mem
    exact parts w mem

/-- Printed values have no gaps. -/
theorem hasGap_print (plain : v.IsPlain p) : v.print.hasGap = false := by
  have list {values : List Value} (parts : ∀ w ∈ values, w.print.hasGap = false) :
      (Snippet.join ", " (values.map print)).hasGap = false := by
    rw [Snippet.hasGap_join, List.any_map, List.any_eq_false]
    simpa using parts
  induction plain with
  | literal => rfl
  | sequence _ _ ih | exception _ _ ih =>
    rw [print, printAll_eq_map]
    exact list ih
  | map _ _ _ keys values =>
    rw [print, printEntries_eq_map]
    show (Snippet.join ", " _).hasGap = false
    rw [Snippet.hasGap_join, List.any_map, List.any_eq_false]
    intro entry mem
    simp [Snippet.followedBy, keys entry mem, values entry mem]
  | library _ isKnown complete _ ih =>
    rw [print, isKnown]
    simp only [mapM_lookup_printAttributes complete]
    exact list ih

end IsPlain

end Value

/-- Nothing is done later with an object of that kind. -/
def ObjectKind.IsFixed : ObjectKind → Prop
  | user .. | generator .. => False
  | _ => True

theorem ObjectKind.Gains.eq_of_isFixed {a b : ObjectKind} (h : a.Gains b) (fixed : a.IsFixed) :
    b = a := by
  cases h with
  | same => rfl
  | user | generator => exact fixed.elim

theorem ObjectKind.Drops.eq_of_isFixed {a b : ObjectKind} (h : a.Drops b) (fixed : a.IsFixed) :
    b = a := by
  cases h with
  | same => rfl
  | last => exact fixed.elim

theorem Value.IsPlain.isFixed_build {p : Project} {v : Value} (plain : v.IsPlain p)
    (ids : List ObjectId) : ((p.outline v).build ids).IsFixed := by
  rw [plain.outline_eq]
  cases plain with
  | literal | sequence | map | exception => trivial
  | library _ isKnown complete =>
    simp only [plainOutline, isKnown, complete]
    trivial

/-- A collection of printed values with all their parts, in which a handle stands for one value. -/
structure Value.Collection (p : Project) (among : Value → Prop) : Prop where
  plain : ∀ {v}, among v → v.IsPlain p
  parts : ∀ {v}, among v → ∀ w ∈ (p.outline v).parts, among w
  same : ∀ {v w}, among v → among w → v.handle = w.handle → v = w

/-- A handle stands for one value only if this is so in a list with all that the values hold. -/
theorem Value.tellApart_of_nodup {values : List Value} (all : List Value) (fewer : ∀ v ∈ values, v ∈ all)
    (closed : ∀ v ∈ all, ∀ w ∈ v.held, w ∈ all) (distinct : (all.map handle).Nodup) :
    TellApart values := by
  have listed {a v : Value} (mem : a ∈ values) (holds : a.Holds v) : v ∈ all := by
    induction holds with
    | refl => exact fewer a mem
    | tail _ held ih => exact closed _ ih _ held
  intro a mem b mem' v w holds holds' same
  exact List.inj_on_of_nodup_map distinct (listed mem holds) (listed mem' holds') same

/-- The values, and all that they hold, are such a collection. -/
theorem Value.collection_of_tellApart {p : Project} {values : List Value} (apart : TellApart values) :
    Collection p fun v => v.IsPlain p ∧ ∃ a ∈ values, a.Holds v where
  plain mem := mem.1
  parts := by
    rintro v ⟨plain, a, mem, holds⟩ w part
    exact ⟨plain.parts w part, a, mem, holds.tail (Project.mem_held_of_mem_parts part)⟩
  same := by
    rintro v w ⟨-, a, mem, holds⟩ ⟨-, b, mem', holds'⟩ same
    exact apart a mem b mem' v w holds holds' same

/-! ## Objects that show values -/

section Depicts

variable {p : Project} {r s : Recording} {known later : Handle → Option ObjectId}
  {among : Value → Prop} {v : Value} {id : ObjectId}

/-- The object is what the value becomes, made from the objects that its parts are known as. -/
def Recording.Shows (p : Project) (known : Handle → Option ObjectId) (r : Recording) (v : Value)
    (id : ObjectId) : Prop :=
  ∃ o ids, r.object? id = some o ∧ o.typeName = v.typeName ∧ o.module = v.module ∧
    o.kind = (p.outline v).build ids ∧
    List.Forall₂ (fun w id => known w.handle = some id) (p.outline v).parts ids

/-- The objects that the values of a collection are known as show them. -/
def Recording.Depicts (p : Project) (among : Value → Prop) (known : Handle → Option ObjectId)
    (r : Recording) : Prop :=
  ∀ v, among v → ∀ id, known v.handle = some id → r.Shows p known v id

/-- More is known, and the object is still there. -/
theorem Recording.Shows.mono (h : r.Shows p known v id)
    (stays : ∀ {handle id}, known handle = some id → later handle = some id)
    (kept : ∀ {o}, r.object? id = some o → s.object? id = some o) : s.Shows p later v id := by
  obtain ⟨o, ids, found, typeName, module, kind, parts⟩ := h
  exact ⟨o, ids, kept found, typeName, module, kind, parts.imp fun _ _ there => stays there⟩

/-- What is done with objects later does not concern those that show printed values. -/
theorem Recording.Depicts.keeps {becomes : ObjectId → ObjectKind → ObjectKind → Prop}
    (h : r.Depicts p among known) (collection : Value.Collection p among)
    (kept : r.KeepsSnapshots becomes s)
    (fixed : ∀ {id a b}, becomes id a b → a.IsFixed → b = a) : s.Depicts p among known := by
  intro v mem id there
  obtain ⟨o, ids, found, typeName, module, kind, parts⟩ := h v mem id there
  obtain ⟨kind', found', made⟩ := kept.objects found
  refine ⟨_, ids, found', typeName, module, ?_, parts⟩
  have isFixed : o.kind.IsFixed := by
    rw [kind]
    exact (collection.plain mem).isFixed_build ids
  exact (fixed made isFixed).trans kind

end Depicts

/-! ## Code for what is shown -/

namespace Setup

variable {p q : Project} {r : Recording} {known : Handle → Option ObjectId} {v : Value}

/-- The parts of a mapping are its keys and values, taken in turn. -/
theorem forall₂_pairUp {R : Value → ObjectId → Prop} {entries : List (Value × Value)}
    {ids : List ObjectId}
    (all : List.Forall₂ R (entries.flatMap fun entry => [entry.1, entry.2]) ids) :
    List.Forall₂ (fun entry pair => R entry.1 pair.1 ∧ R entry.2 pair.2) entries
      (Outline.pairUp ids) := by
  induction entries generalizing ids with
  | nil =>
    cases all
    exact .nil
  | cons entry rest ih =>
    obtain _ | ⟨key, _ | ⟨value, others⟩⟩ := all
    exact .cons ⟨key, value⟩ (ih others)

/-- Objects are written as the values that are known as them, in order. -/
theorem forall₂_construct {values : List Value} {ids : List ObjectId}
    (all : List.Forall₂ (fun w id => known w.handle = some id) values ids)
    (written : ∀ w ∈ values, ∀ id, known w.handle = some id →
      construct q r .empty id = .ok w.print) :
    List.Forall₂ (fun w id => construct q r .empty id = .ok w.print) values ids := by
  induction all with
  | nil => exact .nil
  | cons first _ ih =>
    obtain ⟨head, tail⟩ := List.forall_mem_cons.1 written
    exact .cons (head _ first) (ih tail)

theorem writeList_of_forall₂ {write : Writer} {values : List Value} {ids : List ObjectId}
    (codes : List.Forall₂ (fun w id => write id = .ok w.print) values ids) :
    writeList write ids = .ok (.join ", " (values.map Value.print)) := by
  refine bind_eq_ok.2 ⟨values.map Value.print, ?_, rfl⟩
  rw [mapM_eq_ok, List.forall₂_map_right_iff]
  exact codes.flip

theorem mapM_writeEntry_of_forall₂ {write : Writer} {entries : List (Value × Value)}
    {mapping : List (ObjectId × ObjectId)}
    (codes : List.Forall₂ (fun entry pair => write pair.1 = .ok entry.1.print ∧
      write pair.2 = .ok entry.2.print) entries mapping) :
    mapping.mapM (writeEntry write) = .ok (Value.printEntries entries) := by
  rw [Value.printEntries_eq_map, mapM_eq_ok, List.forall₂_map_right_iff]
  refine codes.flip.imp fun pair entry both => ?_
  exact bind_eq_ok.2 ⟨_, both.1, bind_eq_ok.2 ⟨_, both.2, rfl⟩⟩

/-- The object of a value is written as the value is printed, if the parts are. -/
theorem define_of_shows {id : ObjectId} (plain : v.IsPlain p) (shows : r.Shows p known v id)
    (written : ∀ w ∈ (p.outline v).parts, ∀ id, known w.handle = some id →
      construct q r .empty id = .ok w.print) :
    define q r .empty id = .ok v.print := by
  obtain ⟨o, ids, found, typeName, module, kind, parts⟩ := shows
  have codes := forall₂_construct parts written
  rw [plain.outline_eq] at kind codes
  unfold define writeDefinition
  refine bind_eq_ok.2 ⟨o, Recording.object_eq_ok.2 found, ?_⟩
  cases plain with
  | literal =>
    rw [kind]
    rfl
  | @sequence header shape items =>
    have codes : List.Forall₂ _ items ids := codes
    rw [kind]
    refine bind_eq_ok.2 ⟨_, writeList_of_forall₂ codes, ?_⟩
    rw [Value.print, Value.printAll_eq_map, ← codes.length_eq]
    rfl
  | @map header entries =>
    have codes : List.Forall₂ _ (entries.flatMap _) ids := codes
    rw [kind]
    exact bind_eq_ok.2 ⟨_, mapM_writeEntry_of_forall₂ (forall₂_pairUp codes), rfl⟩
  | @exception header args =>
    have codes : List.Forall₂ _ args ids := codes
    have types : o.typeImport?.toList =
        if header.module = builtinModule ∨ header.module = "" then []
        else [.member header.module header.typeName] := by
      unfold Object.typeImport?
      rw [typeName, module]
      exact apply_ite Option.toList ..
    rw [kind]
    refine bind_eq_ok.2 ⟨_, writeList_of_forall₂ codes, ?_⟩
    rw [Value.print, Value.printAll_eq_map, types, typeName]
    rfl
  | @library header attributes type args _ isKnown complete =>
    simp only [Value.plainOutline, isKnown, complete] at kind codes
    have codes : List.Forall₂ _ args ids := codes
    rw [kind]
    refine bind_eq_ok.2 ⟨_, writeList_of_forall₂ codes, ?_⟩
    rw [Value.print, isKnown]
    simp only [Value.mapM_lookup_printAttributes complete]
    rfl

/-- What shows a value of a collection is written as the value is printed. -/
theorem construct_of_depicts {among : Value → Prop} (collection : Value.Collection p among)
    (depicts : r.Depicts p among known) (mem : among v) {id : ObjectId}
    (there : known v.handle = some id) : construct q r .empty id = .ok v.print := by
  induction eq : sizeOf v using Nat.strongRecOn generalizing v id with
  | _ size ih =>
    rw [construct_eq_ok_iff rfl]
    refine define_of_shows (collection.plain mem) (depicts v mem id there) fun w part id there => ?_
    exact ih (sizeOf w) (eq ▸ Value.sizeOf_lt_of_mem_held (Project.mem_held_of_mem_parts part))
      (collection.parts mem w part) there rfl

end Setup

/-! ## Recording printed values -/

namespace Session

variable {p : Project} {among : Value → Prop} {s t : Session} {around : List Handle} {v : Value}

/-- The session has recorded some values of the collection, and knows their objects. -/
structure Depicts (p : Project) (among : Value → Prop) (s : Session) : Prop where
  unlinked : s.project.unlinked = p.unlinked
  shows : s.recording.Depicts p among s.recording.lookup

/-- The values around are larger. -/
def IsInside (among : Value → Prop) (around : List Handle) (v : Value) : Prop :=
  ∀ w, among w → w.handle ∈ around → sizeOf v < sizeOf w

theorem IsInside.not_mem (h : IsInside among around v) (mem : among v) : v.handle ∉ around :=
  fun inside => Nat.lt_irrefl _ (h v mem inside)

/-- What is inside of a value is inside of the part, too. -/
theorem IsInside.part (h : IsInside among around v) (collection : Value.Collection p among)
    (mem : among v) {w : Value} (part : w ∈ (p.outline v).parts) :
    IsInside among (v.handle :: around) w := by
  have smaller := Value.sizeOf_lt_of_mem_held (Project.mem_held_of_mem_parts part)
  intro a member inside
  rcases List.mem_cons.1 inside with same | inside
  · rw [collection.same member mem same]
    exact smaller
  · exact Nat.lt_trans smaller (h a member inside)

/-- A value that is recorded after its parts is shown by the new object. -/
theorem depicts_pushKnown (h : s.Depicts p among) (collection : Value.Collection p among)
    (mem : among v) (new : s.recording.lookup v.handle = none) {ids : List ObjectId}
    (parts : List.Forall₂ (fun w id => s.recording.lookup w.handle = some id)
      (p.outline v).parts ids) :
    (s.pushKnown v ((p.outline v).build ids)).1.Depicts p among := by
  have taken : s.Takes [] (s.pushKnown v ((p.outline v).build ids)).1 :=
    .known (.refl s) v List.not_mem_nil new (isUnused_build ids)
  refine ⟨taken.unlinked.trans h.unlinked, fun w member id there => ?_⟩
  rw [lookup_pushKnown] at there
  split at there
  · rename_i same
    obtain rfl := collection.same member mem same
    cases there
    refine ⟨_, ids, (object?_pushKnown ..).trans (if_pos rfl), rfl, rfl, rfl, ?_⟩
    exact parts.imp fun _ _ found => taken.lookup found
  · exact (h.shows w member id there).mono (fun found => taken.lookup found)
      fun found => taken.object? found

theorem depicts_serializeWithin (h : s.Depicts p among) (collection : Value.Collection p among)
    (mem : among v) (inside : IsInside among around v) :
    (s.serializeWithin around v).1.Depicts p among := by
  induction eq : sizeOf v using Nat.strongRecOn generalizing v s around with
  | _ size ih =>
    have each (values : List Value) (smaller : ∀ w ∈ values, sizeOf w < size ∧ among w ∧
        IsInside among (v.handle :: around) w) (s : Session) (h : s.Depicts p among) :
        (thread (serializeWithin (v.handle :: around)) s values).1.Depicts p among := by
      induction values generalizing s with
      | nil => exact h
      | cons w rest others =>
        obtain ⟨⟨less, member, inside⟩, later⟩ := List.forall_mem_cons.1 smaller
        exact others later _ (ih (sizeOf w) less h member inside rfl)
    rw [serializeWithin_eq]
    split
    · exact h
    · rename_i new
      rw [if_neg (inside.not_mem mem), Project.outline_congr h.unlinked]
      have member (w : Value) (part : w ∈ (p.outline v).parts) := inside.part collection mem part
      have parts := each (p.outline v).parts (fun w part => ⟨eq ▸ Value.sizeOf_lt_of_mem_held
        (Project.mem_held_of_mem_parts part), collection.parts mem w part, member w part⟩) s h
      have taken := thread_takes (l := (p.outline v).parts)
        (fun w _ s => serializeWithin_takes (v.handle :: around) s w) s
      refine depicts_pushKnown parts collection mem
        ((taken.lookup_around List.mem_cons_self).trans new) (lookup_thread (fun w part => ?_) s)
      exact (member w part).not_mem (collection.parts mem w part)

theorem depicts_perform (h : s.Depicts p among) (collection : Value.Collection p among)
    (op : Operation) (given : ∀ v ∈ op.values, among v) : (s.perform op).Depicts p among := by
  have unlinked := (unlinked_perform s op).trans h.unlinked
  have changes (keeps : op.keepsHandles) : (s.perform op).Depicts p among := by
    refine (perform_proceeds s op keeps).keeps (P := (·.Depicts p among))
      (fun v mem t h => ?_) (fun t u left h => ?_) h
    · exact depicts_serializeWithin h collection (given v mem) fun _ _ none =>
        (List.not_mem_nil none).elim
    · refine ⟨left.unlinked.trans h.unlinked, ?_⟩
      have shows := h.shows.keeps collection left.snapshots fun gains => gains.eq_of_isFixed
      have same : u.recording.lookup = t.recording.lookup := funext left.lookup
      rw [same]
      exact shows
  have none (empty : (s.perform op).recording.known = []) : (s.perform op).Depicts p among := by
    refine ⟨unlinked, fun v _ id there => ?_⟩
    rw [Recording.lookup, empty] at there
    cases there
  cases op with
  | finish isExhausted =>
    by_cases ended : s.recording.isFinished
    · have same : s.perform (.finish isExhausted) = s := by
        show ({ s with recording := s.recording.finish isExhausted } : Session) = s
        rw [Recording.finish, if_pos ended]
      rw [same]
      exact h
    · refine none ?_
      show (s.recording.finish isExhausted).known = []
      rw [Recording.finish, if_neg ended]
  | erase => exact none rfl
  | _ => exact changes rfl

/-- Whatever is done later, as long as objects stay, they show what they did. -/
theorem depicts_performAll {known : Handle → Option ObjectId} (h : s.recording.Depicts p among known)
    (collection : Value.Collection p among) (once : s.recording.KeepsGeneratorsOnce)
    {ops : List Operation} (keeps : ∀ op ∈ ops, op.keepsObjects) :
    (s.performAll ops).recording.Depicts p among known := by
  refine (performAll_induction
    (P := fun t => t.recording.KeepsGeneratorsOnce ∧ t.recording.Depicts p among known)
    ⟨once, h⟩ fun op mem t h => ⟨keepsGeneratorsOnce_perform h.1 op, ?_⟩).2
  have keeps := keeps op mem
  cases op with
  | finish isExhausted =>
    exact h.2.keeps collection (Recording.keepsSnapshots_finish h.1 isExhausted)
      fun drops => drops.eq_of_isFixed
  | erase => cases keeps
  | _ =>
    exact h.2.keeps collection (keepsSnapshots_of_doesAll (perform_does t _ rfl))
      fun gains => gains.eq_of_isFixed

namespace Printed

def one : Value := .literal ⟨.observed 1, "int", builtinModule, []⟩ (.int 1)

def numbers : Value := .sequence ⟨.observed 2, "array", "array", []⟩ (.array 'i') [one]

/-- A tuple of one part. -/
def single : Value := .sequence ⟨.observed 3, "tuple", builtinModule, []⟩ .tuple [numbers]

def table : Value := .map ⟨.observed 4, "dict", builtinModule, []⟩ [(one, single)]

/-- An exception that holds the numbers twice. -/
def failure : Value :=
  .exception ⟨.observed 5, "TableError", "tables", []⟩ [table, numbers] true

def all : List Value := [one, numbers, single, table, failure]

theorem isPlain {p : Project} (none : ∀ v ∈ all, p.findClass v.typeName v.module = none) :
    ∀ v ∈ all, v.IsPlain p := by
  simp only [all, List.forall_mem_cons] at none
  obtain ⟨first, second, third, fourth, fifth, -⟩ := none
  have one : one.IsPlain p := .literal first
  have numbers : numbers.IsPlain p := .sequence second (by simpa using one)
  have single : single.IsPlain p := .sequence third (by simpa using numbers)
  have table : table.IsPlain p := .map fourth (by simpa using one) (by simpa using single)
  have failure : failure.IsPlain p := .exception fifth (by simpa using ⟨table, numbers⟩)
  simpa [all] using ⟨one, numbers, single, table, failure⟩

theorem tellApart : Value.TellApart [failure, single] :=
  Value.tellApart_of_nodup all (by simp [all])
    (by simp [all, Value.held, one, numbers, single, table, failure]) (by decide +kernel)

end Printed

/-- The values are printed ones, and a handle stands for one value only. Then a session that has recorded
nothing else writes each of them as it is printed, now and later. -/
theorem construct_serialize (project : Project) (run : RunId) (ops : List Operation) (v : Value)
    (plain : ∀ w ∈ v :: ops.flatMap Operation.values, w.IsPlain project)
    (apart : Value.TellApart (v :: ops.flatMap Operation.values)) (later : List Operation)
    (keeps : ∀ op ∈ later, op.keepsObjects) (q : Project) :
    Setup.construct q
        ((((start project run).performAll ops).serialize v).1.performAll later).recording .empty
        (((start project run).performAll ops).serialize v).2 = .ok v.print ∧
      v.print.hasGap = false := by
  have given (w : Value) (mem : w ∈ v :: ops.flatMap Operation.values) : w.IsPlain project ∧
      ∃ a ∈ v :: ops.flatMap Operation.values, a.Holds w := ⟨plain w mem, w, mem, .refl⟩
  have collection := Value.collection_of_tellApart (p := project) apart
  have before : ((start project run).performAll ops).Depicts project _ :=
    performAll_induction (P := (·.Depicts project _)) ⟨rfl, by rintro w - id ⟨⟩⟩
      fun op mem t h => depicts_perform h collection op fun w part =>
        given w (List.mem_cons_of_mem _ (List.mem_flatMap.2 ⟨op, mem, part⟩))
  have once : ((start project run).performAll ops).recording.KeepsGeneratorsOnce :=
    performAll_induction (P := (·.recording.KeepsGeneratorsOnce))
      (Recording.keepsGeneratorsOnce_of_nil rfl) fun op _ _ h => keepsGeneratorsOnce_perform h op
  generalize (start project run).performAll ops = s at before once
  have mem := given v List.mem_cons_self
  have after := depicts_serializeWithin before collection mem fun _ _ none =>
    (List.not_mem_nil none).elim
  have still := depicts_performAll after.shows collection
    ((serialize_takes s v).keepsGeneratorsOnce once) keeps
  exact ⟨Setup.construct_of_depicts collection still mem (lookup_serialize s v),
    (plain v List.mem_cons_self).hasGap_print⟩

theorem construct_serialize_printed :
    (∀ w ∈ [Printed.failure, Printed.single], w.IsPlain (.empty "/p")) ∧
    Value.TellApart [Printed.failure, Printed.single] ∧
    Setup.construct (.empty "/p")
        (((((start (.empty "/p") ⟨0⟩).performAll [.serialize Printed.single]).serialize
          Printed.failure).1.performAll [.finish fun _ => true]).recording) .empty
        (((start (.empty "/p") ⟨0⟩).performAll [.serialize Printed.single]).serialize
          Printed.failure).2 = .ok Printed.failure.print ∧
      Printed.failure.print.hasGap = false := by
  have plain : ∀ w ∈ [Printed.failure, Printed.single], w.IsPlain (.empty "/p") := fun w mem =>
    Printed.isPlain (fun _ _ => by simp [Project.findClass, Project.empty]) w
      (by revert w; simp [Printed.all])
  exact ⟨plain, Printed.tellApart,
    construct_serialize (.empty "/p") ⟨0⟩ [.serialize Printed.single] Printed.failure plain
      Printed.tellApart [.finish fun _ => true] (by decide) (.empty "/p")⟩

/-- The numbers are written out each time, and the tuple with a comma behind its part. -/
example : (Printed.failure.print.code, Printed.failure.print.imports.items) =
    ("TableError(\x7b1: (array.array('i', [1]),)\x7d, array.array('i', [1]))",
      [.module "array", .member "tables" "TableError"]) := by
  decide +kernel

end Session

end Reenact
