import Reenact.Proofs.Graph.Preorder
import Reenact.Proofs.Project.Definitions

/-!
# Which method is inherited

Bases may be shared between classes, be named repeatedly, and form cycles. The classes that a method
is looked for in are those met from a class through bases, depth first and in preorder. Looking for it
ends whatever the cycles: each step visits a class that was not visited, or leaves fewer to look into.

**The law** (`findMethod_inherits`): in a project whose bases are all classes of it, a class has
exactly one such order. The method found is the first of its name in the first class of the order that
declares one, and none is found exactly when no class that can be reached through bases declares one.
-/

namespace Reenact.Project

/-- Every base that a class names is a class of the project. -/
def NamesBases (p : Project) : Prop :=
  ∀ c ∈ p.classes.toList, ∀ base ∈ c.bases, base.index < p.classes.size

/-- The class itself declares a method of that name. -/
def Declares (p : Project) (name : String) (index : Nat) : Prop :=
  ∃ c, p.classes[index]? = some c ∧ ∃ m ∈ c.methods, m.name = name

/-- The method has that name, and in its class none of the methods before it does. -/
def IsFirstNamed (p : Project) (name : String) (id : MethodId) : Prop :=
  ∃ c, p.classes[id.owner.index]? = some c ∧ (∃ m, c.methods[id.index]? = some m ∧ m.name = name) ∧
    ∀ m ∈ c.methods.take id.index, m.name ≠ name

/-- The second class is the first one, or a base of it, or a base of that, and so on. -/
def DerivesFrom (p : Project) : Nat → Nat → Prop :=
  Relation.ReflTransGen fun n m => m ∈ p.basesOf n

/-- Methods of the class are looked for along an order of classes. -/
structure InheritsAlong (p : Project) (cls : ClassId) (order : List Nat) : Prop where
  preorder : Graph.Preorder p.basesOf [] [cls.index] order
  /-- No class is looked into twice. -/
  nodup : order.Nodup
  reaches : ∀ index, index ∈ order ↔ p.DerivesFrom cls.index index
  finds : ∀ name id, p.findMethod cls name = some id ↔
    p.IsFirstNamed name id ∧ ∃ before after, order = before ++ id.owner.index :: after ∧
      ∀ index ∈ before, ¬p.Declares name index
  misses : ∀ name, p.findMethod cls name = none ↔
    ∀ index, p.DerivesFrom cls.index index → ¬p.Declares name index

variable {p : Project} {cls : ClassId} {name : String} {index : Nat} {id : MethodId}
  {order : List Nat}

theorem NamesBases.lt_of_mem_basesOf (h : p.NamesBases) {base : Nat} (mem : base ∈ p.basesOf index) :
    base < p.classes.size := by
  unfold basesOf at mem
  split at mem
  · rename_i c found
    obtain ⟨named, inside, rfl⟩ := List.mem_map.1 mem
    exact h c (Array.mem_toList_iff.2 (Array.mem_of_getElem? found)) named inside
  · cases mem

/-! ## One class -/

theorem ownMethod_eq_some_iff :
    p.ownMethod name index = some id ↔ id.owner.index = index ∧ p.IsFirstNamed name id := by
  obtain ⟨⟨owner⟩, position⟩ := id
  unfold ownMethod IsFirstNamed
  dsimp only
  constructor
  · intro own
    split at own
    · rename_i c found
      obtain ⟨i, first, same⟩ := Option.map_eq_some_iff.1 own
      cases same
      obtain ⟨lt, named, others⟩ := List.findIdx?_eq_some_iff_getElem.1 first
      refine ⟨rfl, c, found, ⟨_, List.getElem?_eq_getElem lt, beq_iff_eq.1 named⟩, fun m mem => ?_⟩
      obtain ⟨j, before, rfl⟩ := List.mem_take_iff_getElem.1 mem
      exact fun same => others j (by omega) (beq_iff_eq.2 same)
    · cases own
  · rintro ⟨rfl, c, found, ⟨m, there, named⟩, others⟩
    obtain ⟨lt, rfl⟩ := List.getElem?_eq_some_iff.1 there
    have first : (c.methods.findIdx? fun m => m.name == name) = some position := by
      refine List.findIdx?_eq_some_iff_getElem.2 ⟨lt, beq_iff_eq.2 named, fun j before same => ?_⟩
      exact others _ (List.mem_take_iff_getElem.2 ⟨j, by omega, rfl⟩) (beq_iff_eq.1 same)
    rw [found]
    dsimp only
    rw [first]
    rfl

theorem ownMethod_eq_none_iff : p.ownMethod name index = none ↔ ¬p.Declares name index := by
  unfold ownMethod Declares
  cases p.classes[index]? with
  | none => simp
  | some c => simp [List.findIdx?_eq_none_iff]

/-! ## All classes -/

/-- A method is found along the preorder of classes. -/
theorem findMethod_eq_findSome? (bases : p.NamesBases) (known : cls.index < p.classes.size)
    (preorder : Graph.Preorder p.basesOf [] [cls.index] order) (name : String) :
    p.findMethod cls name = order.findSome? (p.ownMethod name) := by
  refine Graph.search_eq_findSome? preorder fun index mem => ?_
  obtain ⟨start, inside, path⟩ := preorder.sound mem
  obtain rfl := List.mem_singleton.1 inside
  cases path with
  | refl => exact known
  | tail _ edge => exact bases.lt_of_mem_basesOf edge

theorem findMethod_eq_some_iff
    (along : ∀ name, p.findMethod cls name = order.findSome? (p.ownMethod name)) :
    p.findMethod cls name = some id ↔
      p.IsFirstNamed name id ∧ ∃ before after, order = before ++ id.owner.index :: after ∧
        ∀ index ∈ before, ¬p.Declares name index := by
  rw [along, List.findSome?_eq_some_iff]
  constructor
  · rintro ⟨before, index, after, split, own, others⟩
    obtain ⟨rfl, first⟩ := ownMethod_eq_some_iff.1 own
    exact ⟨first, before, after, split, fun index mem => ownMethod_eq_none_iff.1 (others index mem)⟩
  · rintro ⟨first, before, after, split, others⟩
    exact ⟨before, _, after, split, ownMethod_eq_some_iff.2 ⟨rfl, first⟩,
      fun index mem => ownMethod_eq_none_iff.2 (others index mem)⟩

/-- Every class of a project whose bases are classes of it has one order along which its methods are
looked for. -/
theorem findMethod_inherits (p : Project) (bases : p.NamesBases) (cls : ClassId)
    (known : cls.index < p.classes.size) : ∃! order, p.InheritsAlong cls order := by
  obtain ⟨order, preorder⟩ : ∃ order, Graph.Preorder p.basesOf [] [cls.index] order :=
    Graph.exists_preorder (fun _ _ _ edge => bases.lt_of_mem_basesOf edge) []
      fun index mem => List.mem_singleton.1 mem ▸ known
  have along := findMethod_eq_findSome? bases known preorder
  have reaches (index : Nat) : index ∈ order ↔ p.DerivesFrom cls.index index := by
    rw [preorder.mem_iff]
    simp only [List.mem_singleton, exists_eq_left]
    rfl
  refine ⟨order, ⟨preorder, preorder.nodup, reaches, fun _ _ => findMethod_eq_some_iff along,
    fun name => ?_⟩, fun order' other => other.preorder.unique preorder⟩
  rw [along, List.findSome?_eq_none_iff]
  exact forall_congr' fun index => by rw [reaches, ownMethod_eq_none_iff]

/-! Four classes: the first derives from the second and the third, both of these from the fourth, and
the fourth from the first again. The third and the fourth declare the same method. -/

namespace Knotted

def run : Method := ⟨"run", ["self"], false⟩

def project : Project where
  root := "/p"
  functions := #[]
  classes := #[⟨"A", "m", [], [⟨1⟩, ⟨2⟩], []⟩, ⟨"B", "m", [], [⟨3⟩], []⟩, ⟨"C", "m", [run], [⟨3⟩], []⟩,
    ⟨"D", "m", [run], [⟨0⟩], []⟩]

end Knotted

theorem findMethod_inherits_knotted :
    Knotted.project.NamesBases ∧ 0 < Knotted.project.classes.size ∧
      ∃! order, Knotted.project.InheritsAlong ⟨0⟩ order := by
  have bases : Knotted.project.NamesBases := by
    unfold NamesBases
    decide
  exact ⟨bases, by decide, findMethod_inherits Knotted.project bases ⟨0⟩ (by decide)⟩

/-- What is below the second class comes before the third one. -/
example : Knotted.project.findMethod ⟨0⟩ "run" = some ⟨⟨3⟩, 0⟩ := by
  cbv

end Reenact.Project
