import Mathlib.Data.List.Dedup
import Mathlib.Data.List.Nodup
import Reenact.Proofs.Recording.Methods
import Reenact.Proofs.Setup.Naming
import Reenact.Proofs.Trace.Watch

/-!
# Names that clash

Objects whose names are built on one word are numbered among themselves, so these names differ
(`nodup_labels`). Names on different words are never compared, and a word may be spelled like
another one with a number behind it.

**The law** (`Watch.separates_assign_iff`): every listed object of a captured recording gets a name,
and different objects get different names exactly when no two words in use lead to one name. It is
so when no word ends in a digit, and need not be so otherwise (`Watch.not_separates_assign`).
-/

namespace Reenact

namespace Setup.Naming

/-! ## The names on one word -/

/-- The name of the object that is recorded after `i` others with the same word. -/
def label (words : List String) (word : String) (i : Nat) : String :=
  if words.count word = 1 then word else word ++ toString (i + 1)

/-- The names of all objects with the word, in order. -/
def labels (words : List String) (word : String) : List String :=
  (List.range (words.count word)).map (label words word)

theorem labels_congr {words words' : List String} (same : words.Perm words') :
    labels words = labels words' := by
  funext word
  have number : label words word = label words' word := by
    funext i
    rw [label, label, same.count_eq]
  rw [labels, labels, number, same.count_eq]

theorem eq_of_toString_eq {m n : Nat} (same : toString m = toString n) : m = n := by
  have digits := congrArg String.toList same
  simp only [Nat.toString_eq_ofList_toDigits, String.toList_ofList] at digits
  have numbers := congrArg (Nat.ofDigitChars 10 · 0) digits
  simpa only [Nat.ofDigitChars_ten_toDigits] using numbers

/-- Of the names on one word no two are the same. -/
theorem nodup_labels (words : List String) (word : String) : (labels words word).Nodup := by
  refine List.Nodup.map_on (fun i first j second same => ?_) List.nodup_range
  have lt := List.mem_range.1 first
  have lt' := List.mem_range.1 second
  unfold label at same
  split at same
  · omega
  · have numbers := eq_of_toString_eq ((String.append_right_inj word).1 same)
    omega

/-- The names of the objects with one word are the names on that word, in order. -/
theorem names_of_word (wordOf : ObjectId → String) (total seen : List String) (ids : List ObjectId)
    (word : String) :
    ((number total seen (ids.map fun id => (id, wordOf id))).filter
        (wordOf ·.1 = word)).map Prod.snd =
      (List.range' (seen.count word) ((ids.map wordOf).count word)).map (label total word) := by
  induction ids generalizing seen with
  | nil => rfl
  | cons id rest ih =>
    have later := ih (wordOf id :: seen)
    rw [List.map_cons, number, List.map_cons]
    by_cases same : wordOf id = word
    · subst same
      rw [List.filter_cons_of_pos (by simp), List.map_cons, later, List.count_cons_self,
        List.count_cons_self, List.range'_succ, List.map_cons]
      rfl
    · rw [List.filter_cons_of_neg (by simpa using same), later, List.count_cons_of_ne same,
        List.count_cons_of_ne same]

/-! ## The names on all words -/

/-- Different objects of the list have different names. -/
def Separates (names : Naming) (ids : List ObjectId) : Prop :=
  ∀ a ∈ ids, ∀ b ∈ ids, names.get? a = names.get? b → a = b

/-- No two of the words lead to one name. -/
def KeepsApart (words : List String) : Prop :=
  ∀ u ∈ words, ∀ v ∈ words, u ≠ v → (labels words u).Disjoint (labels words v)

section Numbering

variable {wordOf : ObjectId → String} {ids : List ObjectId}

/-- The names of different objects, in order. -/
def numbered (wordOf : ObjectId → String) (ids : List ObjectId) : List (ObjectId × String) :=
  number (ids.map wordOf) [] (ids.map fun id => (id, wordOf id))

theorem ids_numbered (wordOf : ObjectId → String) (ids : List ObjectId) :
    (numbered wordOf ids).map Prod.fst = ids := by
  rw [numbered, ids_number, List.map_map]
  exact List.map_id ids

theorem names_numbered (word : String) :
    ((numbered wordOf ids).filter (wordOf ·.1 = word)).map Prod.snd =
      labels (ids.map wordOf) word := by
  rw [numbered, names_of_word, labels, List.count_nil, List.range_eq_range']

theorem mem_labels_of_mem {entry : ObjectId × String} (mem : entry ∈ numbered wordOf ids) :
    entry.2 ∈ labels (ids.map wordOf) (wordOf entry.1) := by
  rw [← names_numbered]
  exact List.mem_map_of_mem (List.mem_filter.2 ⟨mem, decide_eq_true rfl⟩)

theorem exists_of_mem_labels {word name : String} (mem : name ∈ labels (ids.map wordOf) word) :
    ∃ id, (id, name) ∈ numbered wordOf ids ∧ wordOf id = word := by
  rw [← names_numbered] at mem
  obtain ⟨⟨id, _⟩, inside, rfl⟩ := List.mem_map.1 mem
  obtain ⟨listed, same⟩ := List.mem_filter.1 inside
  exact ⟨id, listed, of_decide_eq_true same⟩

theorem get?_numbered (once : ids.Nodup) {id : ObjectId} {name : String} :
    (Naming.mk (numbered wordOf ids)).get? id = some name ↔ (id, name) ∈ numbered wordOf ids := by
  have keys : ((numbered wordOf ids).map Prod.fst).Nodup := (ids_numbered wordOf ids).symm ▸ once
  exact lookup_eq_some_iff_mem keys

/-- Names separate the objects exactly when no two words lead to one name. -/
theorem separates_numbered_iff (once : ids.Nodup) :
    (Naming.mk (numbered wordOf ids)).Separates ids ↔ KeepsApart (ids.map wordOf) := by
  have listed {id : ObjectId} {name : String} (mem : (id, name) ∈ numbered wordOf ids) :
      id ∈ ids := by
    rw [← ids_numbered wordOf ids]
    exact List.mem_map_of_mem mem
  constructor
  · rintro separates u - v - differ name left right
    obtain ⟨a, first, rfl⟩ := exists_of_mem_labels left
    obtain ⟨b, second, rfl⟩ := exists_of_mem_labels right
    have same := separates a (listed first) b (listed second) <|
      ((get?_numbered once).2 first).trans ((get?_numbered once).2 second).symm
    exact differ (congrArg wordOf same)
  · intro apart a memA b memB same
    have named {id : ObjectId} (mem : id ∈ ids) : ∃ name, (id, name) ∈ numbered wordOf ids := by
      rw [← ids_numbered wordOf ids] at mem
      obtain ⟨⟨_, name⟩, inside, rfl⟩ := List.mem_map.1 mem
      exact ⟨name, inside⟩
    obtain ⟨name, first⟩ := named memA
    have second : (b, name) ∈ numbered wordOf ids :=
      (get?_numbered once).1 (same.symm.trans ((get?_numbered once).2 first))
    by_cases word : wordOf a = wordOf b
    · -- both names are on one word, and are found there once
      have unique : (((numbered wordOf ids).filter (wordOf ·.1 = wordOf b)).map Prod.snd).Nodup :=
        names_numbered (wordOf b) ▸ nodup_labels ..
      have eq := List.inj_on_of_nodup_map unique
        (List.mem_filter.2 ⟨first, decide_eq_true word⟩)
        (List.mem_filter.2 ⟨second, decide_eq_true rfl⟩) rfl
      exact congrArg Prod.fst eq
    · exact (apart _ (List.mem_map_of_mem memA) _ (List.mem_map_of_mem memB) word
        (mem_labels_of_mem first) (mem_labels_of_mem second)).elim

end Numbering

/-! ## Words without digits at the end -/

/-- The word has a digit at its end. -/
def EndsInDigit (word : String) : Prop := ∃ c, word.toList.getLast? = some c ∧ c.isDigit = true

/-- A name is its word with digits behind it. -/
theorem exists_label_eq (words : List String) (word : String) (i : Nat) :
    ∃ digits : List Char, (label words word i).toList = word.toList ++ digits ∧
      ∀ c ∈ digits, c.isDigit = true := by
  unfold label
  split
  · exact ⟨[], (List.append_nil _).symm, nofun⟩
  · refine ⟨Nat.toDigits 10 (i + 1), ?_, fun c mem =>
      Nat.isDigit_of_mem_toDigits (by decide) (by decide) mem⟩
    rw [String.toList_append, Nat.toString_eq_ofList_toDigits, String.toList_ofList]

/-- A word that does not end in a digit is what stands in front of all digits. -/
theorem eq_nil_of_not_endsInDigit {word : String} {front more : List Char}
    (split : word.toList = front ++ more) (digits : ∀ c ∈ more, c.isDigit = true)
    (plain : ¬EndsInDigit word) : more = [] := by
  cases last : more.getLast? with
  | none => exact List.getLast?_eq_none_iff.1 last
  | some c =>
    refine absurd ⟨c, ?_, digits c (List.mem_of_getLast? last)⟩ plain
    rw [split, List.getLast?_append, last]
    rfl

/-- Words that do not end in digits lead to different names. -/
theorem keepsApart_of_plain {words : List String} (plain : ∀ word ∈ words, ¬EndsInDigit word) :
    KeepsApart words := by
  intro u memU v memV differ name left right
  obtain ⟨i, -, rfl⟩ := List.mem_map.1 left
  obtain ⟨j, -, same⟩ := List.mem_map.1 right
  obtain ⟨digits, spelled, all⟩ := exists_label_eq words u i
  obtain ⟨digits', spelled', all'⟩ := exists_label_eq words v j
  rw [same, spelled] at spelled'
  refine differ (String.toList_inj.1 ?_)
  rcases List.append_eq_append_iff.1 spelled' with ⟨more, split, rest⟩ | ⟨more, split, rest⟩
  · have none := eq_nil_of_not_endsInDigit split (fun c mem => all c (by simp [rest, mem]))
      (plain v memV)
    rw [split, none, List.append_nil]
  · have none := eq_nil_of_not_endsInDigit split (fun c mem => all' c (by simp [rest, mem]))
      (plain u memU)
    rw [split, none, List.append_nil]

/-! ## Objects of a recording -/

/-- Entries of one object in a row are left out but for the last. -/
theorem sublist_foldr (objects : List Object) :
    (objects.foldr (fun o rest =>
      if rest.head?.any (fun p => p.id == o.id) then rest else o :: rest) []).Sublist objects := by
  induction objects with
  | nil => exact .slnil
  | cons o rest ih =>
    rw [List.foldr_cons]
    split
    · exact ih.cons o
    · exact ih.cons_cons o

/-- Where no two objects were recorded at one moment, each is listed once. -/
theorem pairwise_inOrder {objects : List Object}
    (distinct : ∀ o ∈ objects, ∀ p ∈ objects, o.moment.tick = p.moment.tick → o.id = p.id) :
    (inOrder objects).Pairwise fun o p => o.moment.tick < p.moment.tick := by
  have sorted : (objects.mergeSort fun a b => decide (a.moment.tick ≤ b.moment.tick)).Pairwise
      fun a b => a.moment.tick ≤ b.moment.tick := by
    refine (List.pairwise_mergeSort (fun a b c => ?_) (fun a b => ?_) objects).imp of_decide_eq_true
    · simpa using Nat.le_trans
    · simpa using Nat.le_total ..
  have members : ∀ o ∈ objects.mergeSort fun a b => decide (a.moment.tick ≤ b.moment.tick),
      o ∈ objects := fun o mem => List.mem_mergeSort.1 mem
  unfold inOrder
  generalize (objects.mergeSort fun a b => decide (a.moment.tick ≤ b.moment.tick)) = all at *
  induction all with
  | nil => exact .nil
  | cons o rest ih =>
    obtain ⟨head, tail⟩ := List.pairwise_cons.1 sorted
    obtain ⟨here, others⟩ := List.forall_mem_cons.1 members
    have later := ih tail others
    have inside := sublist_foldr rest
    rw [List.foldr_cons]
    split
    · exact later
    · rename_i new
      refine List.pairwise_cons.2 ⟨fun p mem => ?_, later⟩
      refine Nat.lt_of_le_of_ne (head p (inside.subset mem)) fun same => new ?_
      -- what comes first is no later than `p`, and so it is the same object
      generalize rest.foldr _ _ = kept at later inside mem
      cases kept with
      | nil => cases mem
      | cons first kept =>
        have le : first.moment.tick ≤ p.moment.tick := by
          rcases List.mem_cons.1 mem with rfl | mem
          · exact Nat.le_refl _
          · exact Nat.le_of_lt ((List.pairwise_cons.1 later).1 p mem)
        have mem := inside.subset List.mem_cons_self
        have eq : o.moment.tick = first.moment.tick :=
          Nat.le_antisymm (head first mem) (same ▸ le)
        simpa using (distinct o here first (others first mem) eq).symm

/-- The word that the name of an object is built on; objects of the recording have one. -/
def wordOf (r : Recording) (id : ObjectId) : String :=
  (r.object? id).elim "" fun o => base o.typeName o.module

theorem mem_of_mem_inOrder {objects : List Object} {o : Object} (mem : o ∈ inOrder objects) :
    o ∈ objects :=
  List.mem_mergeSort.1 ((sublist_foldr _).subset mem)

/-- Objects of the recording can be named, each once however often it is listed. -/
theorem exists_assign {r : Recording} (h : r.Sound) {ids : List ObjectId}
    (known : ∀ id ∈ ids, r.HasObject id) :
    ∃ listed, listed.Perm ids.dedup ∧ assign r ids = .ok ⟨numbered (wordOf r) listed⟩ := by
  obtain ⟨objects, all⟩ := mapM_answers (f := r.object) (l := ids) fun id mem => by
    obtain ⟨o, found⟩ := known id mem
    exact ⟨o, Recording.object_eq_ok.2 found⟩
  have ids_eq : objects.map Object.id = ids := ids_of_mapM h all
  have found : ∀ o ∈ objects, r.object? o.id = some o := by
    intro o mem
    obtain ⟨id, -, answer⟩ := mem_of_mapM_eq_ok all mem
    have there := Recording.object_eq_ok.1 answer
    rw [(h.objects there).1]
    exact there
  have distinct : ∀ o ∈ objects, ∀ p ∈ objects, o.moment.tick = p.moment.tick → o.id = p.id := by
    intro o first p second same
    have stamped : r.momentOf (.object o.id) = some o.moment := by
      rw [Recording.momentOf, found o first, Option.map_some]
    have stamped' : r.momentOf (.object p.id) = some o.moment := by
      rw [Recording.momentOf, found p second, Option.map_some]
      exact congrArg (fun tick => some (Moment.mk tick)) same.symm
    exact Fact.object.inj (h.chronological.distinct stamped stamped')
  have once : ((inOrder objects).map Object.id).Nodup := by
    refine List.pairwise_map.2 <| (pairwise_inOrder distinct).imp_of_mem
      fun {o p} first second lt same => ?_
    have eq := found o (mem_of_mem_inOrder first)
    rw [same, found p (mem_of_mem_inOrder second)] at eq
    cases eq
    exact Nat.lt_irrefl _ lt
  refine ⟨(inOrder objects).map Object.id, ?_, bind_eq_ok.2 ⟨objects, all, ?_⟩⟩
  · refine (List.perm_ext_iff_of_nodup once (List.nodup_dedup ids)).2 fun x => ?_
    rw [mem_ids_inOrder, ids_eq, List.mem_dedup]
  · have words : ((inOrder objects).map fun o => (o.id, base o.typeName o.module)) =
        ((inOrder objects).map Object.id).map fun id => (id, wordOf r id) := by
      rw [List.map_map]
      refine List.map_congr_left fun o mem => ?_
      rw [Function.comp_apply, wordOf, found o (mem_of_mem_inOrder mem), Option.elim_some]
    rw [pure_eq_ok, ofObjects, words, numbered]
    simp only [List.map_map, Function.comp_def]

theorem keepsApart_congr {words words' : List String} (same : words.Perm words') :
    KeepsApart words ↔ KeepsApart words' := by
  unfold KeepsApart
  rw [labels_congr same]
  simp only [same.mem_iff]

theorem separates_assign_iff_of_sound {r : Recording} (h : r.Sound) {ids : List ObjectId}
    (known : ∀ id ∈ ids, r.HasObject id) :
    ∃ names, assign r ids = .ok names ∧ (∀ id ∈ ids, ∃ name, names.get? id = some name) ∧
      (names.Separates ids ↔ KeepsApart (ids.dedup.map (wordOf r))) := by
  obtain ⟨listed, perm, assigned⟩ := exists_assign h known
  have members (x : ObjectId) : x ∈ listed ↔ x ∈ ids := by rw [perm.mem_iff, List.mem_dedup]
  refine ⟨_, assigned, fun id mem => ?_, ?_⟩
  · exact Option.isSome_iff_exists.1 ((isSome_get?_assign h assigned).2 mem)
  · have once : listed.Nodup := perm.nodup_iff.2 (List.nodup_dedup ids)
    rw [← keepsApart_congr (perm.map (wordOf r)), ← separates_numbered_iff once, Separates,
      Separates]
    simp only [members]

end Setup.Naming

open Setup.Naming

namespace Watch

/-! ## Captured recordings

Two instances of one class, and one of a class whose name is the name of the first with a number. -/

namespace Boxes

def project : Project where
  root := "/work/app"
  functions := #[⟨"f", "app.calc", ["x"], false, []⟩]
  classes := #[⟨"Box", "app.stack", [], [], []⟩, ⟨"Box1", "app.stack", [], [], []⟩]

def watch : Watch := ⟨project, ⟨0⟩, .standard, .default, .empty, []⟩

def instanceOf (cls : String) (handle : Nat) : Value :=
  .object ⟨.observed handle, cls, "app.stack", []⟩

/-- Each of the three is in the list twice. -/
def items : Value :=
  .sequence ⟨.observed 8, "list", builtinModule, []⟩ .list
    [instanceOf "Box" 5, instanceOf "Box" 6, instanceOf "Box1" 7, instanceOf "Box1" 7,
      instanceOf "Box" 6, instanceOf "Box" 5]

def null : Value := .literal ⟨.observed 2, "NoneType", builtinModule, []⟩ .none

/-- A function is given the list. -/
def events : List Event := [
  .call ⟨⟨⟨10⟩, "f", "/work/app/app/calc.py", false, false⟩, ⟨[("x", items)], none, none⟩, none⟩,
  .ret null none]

def recording : Recording := watch.recording events

theorem records : watch.Records events recording := ⟨fun _ => false, .inl rfl⟩

/-- The instances. -/
def ids : List ObjectId := [⟨0⟩, ⟨1⟩, ⟨2⟩]

theorem known : ∀ id ∈ ids, recording.HasObject id := by
  have size : recording.objects.size = 5 := by decide +kernel
  simp [ids, Recording.hasObject_iff, size]

end Boxes

/-- Objects of a captured recording can be named in any order, and each of them gets a name.
Different objects get different names exactly when no two words in use lead to one name, and so they
do when no word ends in a digit. -/
theorem separates_assign_iff {w : Watch} {events : List Event} {r : Recording}
    (recorded : w.Records events r) {ids : List ObjectId} (known : ∀ id ∈ ids, r.HasObject id) :
    ∃ names, assign r ids = .ok names ∧ (∀ id ∈ ids, ∃ name, names.get? id = some name) ∧
      (names.Separates ids ↔ KeepsApart (ids.dedup.map (wordOf r))) ∧
      ((∀ id ∈ ids, ¬EndsInDigit (wordOf r id)) → names.Separates ids) := by
  obtain ⟨names, assigned, all, separates⟩ := separates_assign_iff_of_sound recorded.sound known
  refine ⟨names, assigned, all, separates, fun plain => separates.2 (keepsApart_of_plain ?_)⟩
  intro word mem
  obtain ⟨id, listed, rfl⟩ := List.mem_map.1 mem
  exact plain id (List.mem_dedup.1 listed)

theorem separates_assign_iff_boxes :
    Boxes.watch.Records Boxes.events Boxes.recording ∧
    (∀ id ∈ Boxes.ids, Boxes.recording.HasObject id) ∧
    ∃ names, assign Boxes.recording Boxes.ids = .ok names ∧
      (∀ id ∈ Boxes.ids, ∃ name, names.get? id = some name) ∧
      (names.Separates Boxes.ids ↔ KeepsApart (Boxes.ids.dedup.map (wordOf Boxes.recording))) ∧
      ((∀ id ∈ Boxes.ids, ¬EndsInDigit (wordOf Boxes.recording id)) → names.Separates Boxes.ids) :=
  ⟨Boxes.records, Boxes.known, separates_assign_iff Boxes.records Boxes.known⟩

/-- The first instance of `Box` and the instance of `Box1` are both named `box1`. -/
theorem not_separates_assign : ¬∀ (w : Watch) (events : List Event) (r : Recording)
    (ids : List ObjectId), w.Records events r → (∀ id ∈ ids, r.HasObject id) →
    ∃ names, assign r ids = .ok names ∧ (∀ id ∈ ids, ∃ name, names.get? id = some name) ∧
      names.Separates ids := by
  intro separated
  obtain ⟨names, assigned, -, separates⟩ :=
    separated Boxes.watch Boxes.events Boxes.recording Boxes.ids Boxes.records Boxes.known
  obtain ⟨given, assigned', -, exactly⟩ :=
    separates_assign_iff_of_sound Boxes.records.sound Boxes.known
  obtain rfl := Except.ok.inj (assigned.symm.trans assigned')
  have words : Boxes.ids.dedup.map (wordOf Boxes.recording) = ["box", "box", "box1"] := by
    decide +kernel
  have apart := words ▸ exactly.1 separates
  have first : "box1" ∈ labels ["box", "box", "box1"] "box" := by decide +kernel
  have second : "box1" ∈ labels ["box", "box", "box1"] "box1" := by decide +kernel
  exact apart "box" (by simp) "box1" (by simp) (by simp) first second

end Watch

end Reenact
