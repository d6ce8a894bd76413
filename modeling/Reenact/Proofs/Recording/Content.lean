import Mathlib.Data.List.Forall2
import Reenact.Proofs.Recording.Reachable
import Reenact.Recording.Content

/-!
# Having the same content

Comparing two objects, gathering the data of one and asking whether code can make it each follow
parts for a number of steps. Where every object is made from objects before it, that number does not
matter (`IsBuilt.steps_eq`): each of the three answers for an object as it answers for the parts,
and the number is gone from the three equations.

**The law** (`comparesContent`): in a reachable recording, having the same content is an
equivalence, and objects with the same content have the same data. Both are told by induction on why
two objects have the same content (`IsBuilt.hasSameContent_induction`): they are one object, or
alike apart from their parts, which have the same content in order.
-/

namespace Reenact

/-! ## Alike kinds -/

/-- The kinds are the same apart from parts, and the imports that follow from a library type.
Unknown objects, instances and generators are like nothing. -/
inductive ObjectKind.IsLike : ObjectKind → ObjectKind → Prop
  | immutable (code : String) (imports : ImportSet) :
    IsLike (immutable code imports) (immutable code imports)
  | sequence (shape : Shape) (as bs : List ObjectId) :
    IsLike (sequence shape as) (sequence shape bs)
  | map (as bs : List (ObjectId × ObjectId)) : IsLike (map as) (map bs)
  | exception (as bs : List ObjectId) : IsLike (exception as) (exception bs)
  | library (format : String) (as bs : List ObjectId) (imports imports' : ImportSet) :
    IsLike (library format as imports) (library format bs imports')

/-- Two objects are alike apart from their parts. -/
structure Object.IsLike (x y : Object) : Prop where
  typeName : x.typeName = y.typeName
  module : x.module = y.module
  kind : x.kind.IsLike y.kind

namespace ObjectKind

variable {a b c : ObjectKind}

theorem IsLike.symm (h : a.IsLike b) : b.IsLike a := by
  cases h <;> constructor

theorem IsLike.trans (h : a.IsLike b) (next : b.IsLike c) : a.IsLike c := by
  cases h <;> cases next <;> constructor

theorem isAlike_iff : Recording.isAlike a b = true ↔ a.IsLike b := by
  constructor
  · fun_cases Recording.isAlike a b with
    | case1 =>
      intro alike
      simp only [Bool.and_eq_true, beq_iff_eq] at alike
      obtain ⟨rfl, rfl⟩ := alike
      exact .immutable ..
    | case2 =>
      intro alike
      obtain rfl := beq_iff_eq.1 alike
      exact .sequence ..
    | case3 => exact fun _ => .map ..
    | case4 => exact fun _ => .exception ..
    | case5 =>
      intro alike
      obtain rfl := beq_iff_eq.1 alike
      exact .library ..
    | case6 => exact nofun
  · intro like
    cases like <;> simp [Recording.isAlike]

/-- The data of alike kinds is the same, and the number of the object is not in it. -/
theorem IsLike.exists_kindData? (h : a.IsLike b) :
    ∃ own, Recording.kindData? a = some own ∧ Recording.kindData? b = some own := by
  cases h <;> exact ⟨_, rfl, rfl⟩

end ObjectKind

namespace Object

variable {x y z : Object}

theorem IsLike.symm (h : x.IsLike y) : y.IsLike x := ⟨h.typeName.symm, h.module.symm, h.kind.symm⟩

theorem IsLike.trans (h : x.IsLike y) (next : y.IsLike z) : x.IsLike z :=
  ⟨h.typeName.trans next.typeName, h.module.trans next.module, h.kind.trans next.kind⟩

end Object

/-- Members related in turn to those of a second list, and these to those of a third. -/
theorem forall₂_chain {α β γ : Type} {R : α → β → Prop} {S : β → γ → Prop} {T : α → γ → Prop}
    (chain : ∀ {a b c}, R a b → S b c → T a c) {as : List α} {bs : List β} {cs : List γ}
    (h : List.Forall₂ R as bs) (next : List.Forall₂ S bs cs) : List.Forall₂ T as cs := by
  induction h generalizing cs with
  | nil =>
    cases next
    exact .nil
  | cons head _ ih =>
    obtain _ | ⟨head', tail'⟩ := next
    exact .cons (chain head head') (ih tail')

theorem map_eq_of_forall₂ {α β γ : Type} {f : α → γ} {g : β → γ} {as : List α} {bs : List β}
    (h : List.Forall₂ (fun a b => f a = g b) as bs) : as.map f = bs.map g := by
  have images : List.Forall₂ Eq (as.map f) (bs.map g) :=
    List.forall₂_map_left_iff.2 (List.forall₂_map_right_iff.2 h)
  rwa [List.forall₂_eq_eq_eq] at images

namespace Recording

variable {r : Recording} {a b : ObjectId}

theorem allAlike_iff {same : ObjectId → ObjectId → Bool} {as bs : List ObjectId} :
    allAlike same as bs = true ↔ List.Forall₂ (fun a b => same a b = true) as bs := by
  induction as generalizing bs with
  | nil => cases bs <;> simp [allAlike]
  | cons a as ih => cases bs <;> simp [allAlike, ih]

/-! ## Any number of steps -/

/-- Whether two objects have the same content, by what holds of their parts. -/
def sameContentBy (r : Recording) (same : ObjectId → ObjectId → Bool) (a b : ObjectId) : Bool :=
  a == b ||
    match r.object? a, r.object? b with
    | some left, some right =>
      left.typeName == right.typeName && left.module == right.module &&
        isAlike left.kind right.kind && allAlike same left.parts right.parts
    | _, _ => false

/-- The data of an object, by the data of its parts. -/
def contentDataBy (r : Recording) (data : ObjectId → List Datum) (id : ObjectId) : List Datum :=
  match r.object? id with
  | none => [.number id.index]
  | some o =>
    .text o.typeName :: .text o.module ::
      match kindData? o.kind with
      | none => [.number id.index]
      | some own => own ++ .number o.parts.length :: o.parts.flatMap data

/-- Whether code can make an object, by whether it can make the parts. -/
def isConstructibleBy (r : Recording) (can : ObjectId → Bool) (id : ObjectId) : Bool :=
  match (r.object? id).map Object.kind with
  | none => false
  | some (.unknown _) => false
  | some (.generator activation _) => activation.isSome
  | some (.immutable ..) | some (.user ..) => true
  | some kind => kind.parts.all can

section Steps

variable {α : Type} {F : (ObjectId → α) → ObjectId → α} {f : Nat → ObjectId → α}

/-- What is told of an object depends on what is told of its parts only. -/
def FollowsParts (r : Recording) (F : (ObjectId → α) → ObjectId → α) : Prop :=
  ∀ f g id, (∀ x, r.IsPartOf x id → f x = g x) → F f id = F g id

/-- Steps beyond the number of the object do not matter. -/
theorem IsBuilt.steps_eq (h : r.IsBuilt) (follows : r.FollowsParts F)
    (step : ∀ n, f (n + 1) = F (f n)) {n m : Nat} {id : ObjectId} (enough : id.index < n)
    (enough' : id.index < m) : f n id = f m id := by
  induction n generalizing m id with
  | zero => omega
  | succ n ih =>
    obtain _ | m := m
    · omega
    rw [step, step]
    refine follows _ _ _ fun x part => ?_
    have lt := h.index_lt part
    exact ih (by omega) (by omega)

/-- What is told of an object within the steps it needs is told of it by its parts. -/
theorem IsBuilt.eq_of_steps (h : r.IsBuilt) (follows : r.FollowsParts F)
    (step : ∀ n, f (n + 1) = F (f n)) (id : ObjectId) :
    f (id.index + 1) id = F (fun x => f (x.index + 1) x) id := by
  rw [step]
  refine follows _ _ _ fun x part => ?_
  have lt := h.index_lt part
  exact h.steps_eq follows step (by omega) (by omega)

end Steps

theorem followsParts_sameContentBy (r : Recording) : r.FollowsParts r.sameContentBy := by
  intro f g a agree
  funext b
  unfold sameContentBy
  cases left : r.object? a with
  | none => rfl
  | some x =>
    cases r.object? b with
    | none => rfl
    | some y =>
      have parts : allAlike f x.parts y.parts = allAlike g x.parts y.parts := by
        have each : ∀ s ∈ x.parts, f s = g s := fun s mem => agree s ⟨x, left, mem⟩
        generalize x.parts = as at each
        generalize y.parts = bs
        induction as generalizing bs with
        | nil => cases bs <;> rfl
        | cons s as ih =>
          obtain ⟨head, tail⟩ := List.forall_mem_cons.1 each
          cases bs with
          | nil => rfl
          | cons t bs => rw [allAlike, allAlike, head, ih tail]
      simp only [parts]

theorem followsParts_contentDataBy (r : Recording) : r.FollowsParts r.contentDataBy := by
  intro f g id agree
  unfold contentDataBy
  cases found : r.object? id with
  | none => rfl
  | some o =>
    have parts : o.parts.flatMap f = o.parts.flatMap g :=
      List.flatMap_congr fun x mem => agree x ⟨o, found, mem⟩
    simp only [parts]

theorem followsParts_isConstructibleBy (r : Recording) : r.FollowsParts r.isConstructibleBy := by
  intro f g id agree
  unfold isConstructibleBy
  cases found : r.object? id with
  | none => rfl
  | some o =>
    have parts : o.kind.parts.all f = o.kind.parts.all g := by
      rw [Bool.eq_iff_iff, List.all_eq_true, List.all_eq_true]
      exact forall₂_congr fun x mem => by rw [agree x ⟨o, found, mem⟩]
    rw [Option.map_some]
    generalize o.kind = kind at parts
    cases kind with
    | immutable | unknown | user | generator => rfl
    | sequence | map | exception | library => exact parts

theorem IsBuilt.hasSameContent_eq (h : r.IsBuilt) (a b : ObjectId) :
    r.hasSameContent a b = r.sameContentBy r.hasSameContent a b :=
  congrFun (h.eq_of_steps (f := r.hasSameContentWithin) (followsParts_sameContentBy r)
    (fun _ => rfl) a) b

theorem IsBuilt.contentData_eq (h : r.IsBuilt) (id : ObjectId) :
    r.contentData id = r.contentDataBy r.contentData id :=
  h.eq_of_steps (f := r.contentDataWithin) (followsParts_contentDataBy r) (fun _ => rfl) id

theorem IsBuilt.isConstructible_eq (h : r.IsBuilt) (id : ObjectId) :
    r.isConstructible id = r.isConstructibleBy r.isConstructible id :=
  h.eq_of_steps (f := r.isConstructibleWithin) (followsParts_isConstructibleBy r) (fun _ => rfl) id

/-! ## Why two objects have the same content -/

/-- They are one object, or they are alike apart from their parts, which have the same content in
order. -/
theorem IsBuilt.hasSameContent_iff (h : r.IsBuilt) :
    r.hasSameContent a b ↔ a = b ∨ ∃ x y, r.object? a = some x ∧ r.object? b = some y ∧
      x.IsLike y ∧ List.Forall₂ (fun s t => r.hasSameContent s t) x.parts y.parts := by
  rw [h.hasSameContent_eq, sameContentBy, Bool.or_eq_true, beq_iff_eq]
  refine or_congr_right ?_
  constructor
  · intro same
    split at same
    · rename_i x y left right
      simp only [Bool.and_eq_true, beq_iff_eq, ObjectKind.isAlike_iff, allAlike_iff] at same
      obtain ⟨⟨⟨typeName, module⟩, kind⟩, parts⟩ := same
      exact ⟨x, y, left, right, ⟨typeName, module, kind⟩, parts⟩
    · cases same
  · rintro ⟨x, y, left, right, like, parts⟩
    simp only [left, right, Bool.and_eq_true, beq_iff_eq, ObjectKind.isAlike_iff, allAlike_iff]
    exact ⟨⟨⟨like.typeName, like.module⟩, like.kind⟩, parts⟩

/-- What holds of every object with itself, and of objects that are alike and whose parts it holds
of in order, holds of all objects with the same content. -/
theorem IsBuilt.hasSameContent_induction (h : r.IsBuilt) {P : ObjectId → ObjectId → Prop}
    (one : ∀ a, P a a)
    (alike : ∀ {a b x y}, r.object? a = some x → r.object? b = some y → x.IsLike y →
      List.Forall₂ (fun s t => r.hasSameContent s t ∧ P s t) x.parts y.parts → P a b)
    (same : r.hasSameContent a b) : P a b := by
  induction a using h.wellFounded_isPartOf.induction generalizing b with
  | _ a ih =>
    rcases h.hasSameContent_iff.1 same with rfl | ⟨x, y, left, right, like, parts⟩
    · exact one a
    · -- the parts on the left are smaller, which the relation alone does not tell
      have inside : List.Forall₂ (fun s t => s ∈ x.parts ∧ r.hasSameContent s t) x.parts y.parts :=
        (List.forall₂_and_left _ _).2 ⟨fun _ mem => mem, parts⟩
      exact alike left right like <| inside.imp fun s t ⟨mem, eq⟩ => ⟨eq, ih s ⟨x, left, mem⟩ eq⟩

theorem hasSameContent_refl (r : Recording) (a : ObjectId) : r.hasSameContent a a := by
  rw [hasSameContent, hasSameContentWithin, BEq.refl, Bool.true_or]

theorem IsBuilt.hasSameContent_symm (h : r.IsBuilt) (same : r.hasSameContent a b) :
    r.hasSameContent b a := by
  refine h.hasSameContent_induction (P := fun a b => r.hasSameContent b a) (hasSameContent_refl r)
    (fun left right like parts => ?_) same
  exact h.hasSameContent_iff.2
    (.inr ⟨_, _, right, left, like.symm, (parts.imp fun _ _ both => both.2).flip⟩)

theorem IsBuilt.hasSameContent_trans (h : r.IsBuilt) {c : ObjectId} (same : r.hasSameContent a b)
    (next : r.hasSameContent b c) : r.hasSameContent a c := by
  refine h.hasSameContent_induction
    (P := fun a b => ∀ {c}, r.hasSameContent b c → r.hasSameContent a c) (fun _ _ same => same)
    (fun left right like parts c next => ?_) same next
  rcases h.hasSameContent_iff.1 next with rfl | ⟨y, z, middle, last, like', parts'⟩
  · exact h.hasSameContent_iff.2
      (.inr ⟨_, _, left, right, like, parts.imp fun _ _ both => both.1⟩)
  · cases right.symm.trans middle
    exact h.hasSameContent_iff.2 (.inr ⟨_, _, left, last, like.trans like',
      forall₂_chain (fun both next => both.2 next) parts parts'⟩)

/-- Objects with the same content have the same data. -/
theorem IsBuilt.contentData_eq_of_same (h : r.IsBuilt) (same : r.hasSameContent a b) :
    r.contentData a = r.contentData b := by
  refine h.hasSameContent_induction (P := fun a b => r.contentData a = r.contentData b)
    (fun _ => rfl) (fun {a b x y} left right like parts => ?_) same
  obtain ⟨own, ownLeft, ownRight⟩ := like.kind.exists_kindData?
  have data : x.parts.flatMap r.contentData = y.parts.flatMap r.contentData := by
    rw [List.flatMap_def, List.flatMap_def, map_eq_of_forall₂ (parts.imp fun _ _ both => both.2)]
  rw [h.contentData_eq, h.contentData_eq, contentDataBy, contentDataBy]
  simp only [left, right, like.typeName, like.module, ownLeft, ownRight, parts.length_eq, data]

/-! ## Any recording that operations lead to -/

/-- Comparing objects and gathering their data end, and agree. -/
structure ComparesContent (r : Recording) : Prop where
  /-- Going from objects to their parts ends. -/
  ends : WellFounded r.IsPartOf
  /-- Objects are compared by their parts, to any depth. -/
  compares : ∀ a b, r.hasSameContent a b = r.sameContentBy r.hasSameContent a b
  /-- The data of an object holds the data of its parts, to any depth. -/
  gathers : ∀ id, r.contentData id = r.contentDataBy r.contentData id
  equivalence : Equivalence fun a b => r.hasSameContent a b = true
  data : ∀ a b, r.hasSameContent a b = true → r.contentData a = r.contentData b

/-- In every recording that operations lead to, having the same content is an equivalence of
objects, and those with the same content have the same data. -/
theorem comparesContent {r : Recording} (reached : r.IsReachable) : r.ComparesContent where
  ends := reached.isBuilt.wellFounded_isPartOf
  compares := reached.isBuilt.hasSameContent_eq
  gathers := reached.isBuilt.contentData_eq
  equivalence :=
    { refl := hasSameContent_refl r
      symm := reached.isBuilt.hasSameContent_symm
      trans := reached.isBuilt.hasSameContent_trans }
  data _ _ := reached.isBuilt.contentData_eq_of_same

/-! Tuples of two pairs of one number: in one of them both pairs are one value, in the other they
are not. -/

namespace Twins

def number : Value := .literal ⟨.observed 1, "int", builtinModule, []⟩ (.int 1)

def tuple (handle : Nat) (items : List Value) : Value :=
  .sequence ⟨.observed handle, "tuple", builtinModule, []⟩ .tuple items

def pair (handle : Nat) : Value := tuple handle [number, number]

def recording : Recording :=
  ((Session.start (.empty "/p") ⟨0⟩).performAll
    [.serialize (tuple 3 [pair 2, pair 2]), .serialize (tuple 6 [pair 4, pair 5])]).recording

end Twins

theorem comparesContent_twins :
    Twins.recording.IsReachable ∧ Twins.recording.hasSameContent ⟨2⟩ ⟨5⟩ = true ∧
      Twins.recording.ComparesContent ∧
      Twins.recording.contentData ⟨2⟩ = Twins.recording.contentData ⟨5⟩ := by
  have reached : Twins.recording.IsReachable := isReachable_performAll ..
  have same : Twins.recording.hasSameContent ⟨2⟩ ⟨5⟩ = true := by decide +kernel
  have compares := comparesContent reached
  exact ⟨reached, same, compares, compares.data _ _ same⟩

end Recording

end Reenact
