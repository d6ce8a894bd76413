import Reenact.Project.Inheritance

/-!
# What a project defines

Recording adds links to a project and changes nothing else. `Project.unlinked` is a project without
its links: two projects with the same `unlinked` define the same functions, classes and methods, and
every look-up by number answers alike on both. A method that is found by name is one of the project,
so recording a call of it is never refused for lack of the method.
-/

namespace Reenact

/-- The function without its links. -/
def Function.unlinked (f : Function) : Function := { f with links := [] }

/-- The class without its links. -/
def Class.unlinked (c : Class) : Class := { c with links := [] }

namespace Project

/-- The project without its links. -/
def unlinked (p : Project) : Project where
  root := p.root
  functions := p.functions.map Function.unlinked
  classes := p.classes.map Class.unlinked

@[simp] theorem unlinked_linkFunction (p : Project) (id : FunctionId) (link : Link) :
    (p.linkFunction id link).unlinked = p.unlinked := by
  simp only [unlinked, linkFunction, mk.injEq, true_and, and_true]
  refine Array.ext_getElem? fun i => ?_
  simp only [Array.getElem?_map, Array.getElem?_modify]
  split
  · cases p.functions[i]? <;> rfl
  · rfl

@[simp] theorem unlinked_linkClass (p : Project) (id : ClassId) (link : Link) :
    (p.linkClass id link).unlinked = p.unlinked := by
  simp only [unlinked, linkClass, mk.injEq, true_and]
  refine Array.ext_getElem? fun i => ?_
  simp only [Array.getElem?_map, Array.getElem?_modify]
  split
  · cases p.classes[i]? <;> rfl
  · rfl

@[simp] theorem unlinked_forget (p : Project) (run : RunId) :
    (p.forget run).unlinked = p.unlinked := by
  simp only [unlinked, forget, mk.injEq, true_and, Array.map_map]
  exact ⟨rfl, rfl⟩

/-- Links do not matter to the look-up of a class by name. -/
@[simp] theorem findClass_unlinked (p : Project) (name module : String) :
    p.unlinked.findClass name module = p.findClass name module := by
  simp only [findClass, unlinked, Array.findIdx?_map]
  rfl

theorem findClass_congr {p q : Project} (same : p.unlinked = q.unlinked) (name module : String) :
    p.findClass name module = q.findClass name module := by
  rw [← findClass_unlinked, same, findClass_unlinked]

/-- Links do not matter to whether the project has a function. -/
theorem function?_unlinked (p : Project) (id : FunctionId) :
    p.unlinked.function? id = (p.function? id).map Function.unlinked := by
  simp only [function?, unlinked, Array.getElem?_map]
  cases p.functions[id.index]? <;> rfl

theorem exists_function?_congr {p q : Project} (same : p.unlinked = q.unlinked) {id : FunctionId}
    (h : ∃ f, p.function? id = .ok f) : ∃ f, q.function? id = .ok f := by
  obtain ⟨f, found⟩ := h
  have answer : (q.function? id).map Function.unlinked = .ok f.unlinked := by
    rw [← function?_unlinked, ← same, function?_unlinked, found]
    rfl
  cases other : q.function? id with
  | ok g => exact ⟨g, rfl⟩
  | error fault =>
    rw [other] at answer
    cases answer

/-- Links do not matter to the look-up of a method. -/
@[simp] theorem method?_unlinked (p : Project) (id : MethodId) :
    p.unlinked.method? id = p.method? id := by
  simp only [method?, class?, unlinked, Array.getElem?_map]
  cases p.classes[id.owner.index]? <;> rfl

theorem method?_congr {p q : Project} (same : p.unlinked = q.unlinked) (id : MethodId) :
    p.method? id = q.method? id := by
  rw [← method?_unlinked, same, method?_unlinked]

/-! ## What is found by name -/

/-- Links do not matter to the look-up of a function by name. -/
@[simp] theorem findFunction_unlinked (p : Project) (name module : String) :
    p.unlinked.findFunction name module = p.findFunction name module := by
  simp only [findFunction, unlinked, Array.findIdx?_map]
  rfl

theorem findFunction_congr {p q : Project} (same : p.unlinked = q.unlinked) (name module : String) :
    p.findFunction name module = q.findFunction name module := by
  rw [← findFunction_unlinked, same, findFunction_unlinked]

theorem moduleOfFile_congr {p q : Project} (same : p.unlinked = q.unlinked) (path : String) :
    p.moduleOfFile path = q.moduleOfFile path := by
  show Path.module? p.unlinked.root path = Path.module? q.unlinked.root path
  rw [same]

@[simp] theorem ownMethod_unlinked (p : Project) (name : String) :
    p.unlinked.ownMethod name = p.ownMethod name := by
  funext index
  simp only [ownMethod, unlinked, Array.getElem?_map]
  cases p.classes[index]? <;> rfl

@[simp] theorem basesOf_unlinked (p : Project) : p.unlinked.basesOf = p.basesOf := by
  funext index
  simp only [basesOf, unlinked, Array.getElem?_map]
  cases p.classes[index]? <;> rfl

/-- Links do not matter to the look-up of a method by name. -/
@[simp] theorem findMethod_unlinked (p : Project) (cls : ClassId) (name : String) :
    p.unlinked.findMethod cls name = p.findMethod cls name := by
  have size : p.unlinked.classes.size = p.classes.size := Array.size_map
  rw [findMethod, size, ownMethod_unlinked, basesOf_unlinked, findMethod]

theorem findMethod_congr {p q : Project} (same : p.unlinked = q.unlinked) (cls : ClassId)
    (name : String) : p.findMethod cls name = q.findMethod cls name := by
  rw [← findMethod_unlinked, same, findMethod_unlinked]

/-- A search that answers, answers with what it was told at some node. -/
theorem exists_of_search_eq_some {α : Type} {bound : Nat} {next : Nat → List Nat}
    {answer : Nat → Option α} {visited pending : List Nat} {a : α}
    (h : Graph.search bound next answer visited pending = some a) : ∃ n, answer n = some a := by
  fun_induction Graph.search bound next answer visited pending with
  | case1 => cases h
  | case2 visited n pending seen ih => exact ih h
  | case3 visited n pending fresh lt b found =>
    cases h
    exact ⟨n, found⟩
  | case4 visited n pending fresh lt none ih => exact ih h
  | case5 => cases h

/-- The method of a class that has that name is part of the project. -/
theorem method?_of_ownMethod {p : Project} {name : String} {n : Nat} {id : MethodId}
    (h : p.ownMethod name n = some id) : ∃ m, p.method? id = .ok m := by
  unfold ownMethod at h
  split at h
  · rename_i c found
    obtain ⟨i, position, rfl⟩ := Option.map_eq_some_iff.1 h
    obtain ⟨lt, -⟩ := List.findIdx?_eq_some_iff_getElem.1 position
    refine ⟨c.methods[i], ?_⟩
    simp only [method?, class?, found]
    simp [bind, Except.bind, List.getElem?_eq_getElem lt]
  · cases h

/-- A method of the class itself is found before those of its bases. -/
theorem findMethod_of_own {p : Project} {cls : ClassId} {name : String} {id : MethodId}
    (own : p.ownMethod name cls.index = some id) : p.findMethod cls name = some id := by
  have lt : cls.index < p.classes.size := by
    unfold ownMethod at own
    split at own
    · rename_i found
      exact (Array.getElem?_eq_some_iff.1 found).1
    · cases own
  rw [findMethod, Graph.search, if_neg List.not_mem_nil, if_pos lt, own]

/-- A method that is found by name is part of the project. -/
theorem method?_of_findMethod {p : Project} {cls : ClassId} {name : String} {id : MethodId}
    (h : p.findMethod cls name = some id) : ∃ m, p.method? id = .ok m := by
  obtain ⟨n, own⟩ := exists_of_search_eq_some h
  exact method?_of_ownMethod own

end Project

end Reenact
