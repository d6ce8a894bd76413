import Reenact.Proofs.Project.Definitions

/-!
# Links of a project

Functions and classes are linked in the same way, so both are places that links lead from. A new
link is the last one of its place, and forgetting a run leaves the links of all others in their
order. Two projects that are equal once a run is forgotten differ in nothing but the links of that
run.
-/

namespace Reenact

/-- A function or class of a project, from which links lead. -/
inductive Place where
  | function (id : FunctionId)
  | class (id : ClassId)
  deriving DecidableEq, Repr

namespace Project

variable {p q : Project} {run other : RunId}

/-- The project has the function or class. -/
def HasPlace (p : Project) : Place → Prop
  | .function id => id.index < p.functions.size
  | .class id => id.index < p.classes.size

/-- The links that lead from a place, in order. None lead from a place that the project lacks. -/
def linksAt (p : Project) : Place → List Link
  | .function id => (p.functions[id.index]?.map Function.links).getD []
  | .class id => (p.classes[id.index]?.map Class.links).getD []

/-- What the links of a run lead to from a place, in order. -/
def targets (p : Project) (run : RunId) (place : Place) : List LinkTarget :=
  ((p.linksAt place).filter (·.run == run)).map Link.target

/-- Adds a link to a place. -/
def link (p : Project) (l : Link) : Place → Project
  | .function id => p.linkFunction id l
  | .class id => p.linkClass id l

theorem unlinked_link (p : Project) (l : Link) (place : Place) :
    (p.link l place).unlinked = p.unlinked := by
  cases place with
  | function id => exact unlinked_linkFunction p id l
  | «class» id => exact unlinked_linkClass p id l

theorem mem_targets {place : Place} {target : LinkTarget} :
    target ∈ p.targets run place ↔ ⟨run, target⟩ ∈ p.linksAt place := by
  simp only [targets, List.mem_map, List.mem_filter, beq_iff_eq]
  constructor
  · rintro ⟨l, ⟨mem, rfl⟩, rfl⟩
    exact mem
  · intro mem
    exact ⟨_, ⟨mem, rfl⟩, rfl⟩

/-! ## Places -/

theorem hasPlace_congr (same : p.unlinked = q.unlinked) (place : Place) :
    p.HasPlace place ↔ q.HasPlace place := by
  have functions := congrArg (fun p => p.functions.size) same
  have classes := congrArg (fun p => p.classes.size) same
  simp only [unlinked, Array.size_map] at functions classes
  cases place with
  | function => rw [HasPlace, functions, HasPlace]
  | «class» => rw [HasPlace, classes, HasPlace]

theorem hasPlace_of_function? {id : FunctionId} (h : ∃ f, p.function? id = .ok f) :
    p.HasPlace (.function id) := by
  obtain ⟨f, found⟩ := h
  unfold function? at found
  split at found
  · rename_i there
    exact (Array.getElem?_eq_some_iff.1 there).1
  · cases found

/-- A function that is found by name is one of the project. -/
theorem function?_of_findFunction {name module : String} {id : FunctionId}
    (h : p.findFunction name module = some id) : ∃ f, p.function? id = .ok f := by
  obtain ⟨i, position, rfl⟩ := Option.map_eq_some_iff.1 h
  obtain ⟨lt, -⟩ := Array.findIdx?_eq_some_iff_getElem.1 position
  exact ⟨p.functions[i], by rw [function?, Array.getElem?_eq_getElem lt]⟩

/-- A class that is found by name is one of the project. -/
theorem hasPlace_of_findClass {name module : String} {id : ClassId}
    (h : p.findClass name module = some id) : p.HasPlace (.class id) := by
  obtain ⟨i, position, rfl⟩ := Option.map_eq_some_iff.1 h
  exact (Array.findIdx?_eq_some_iff_getElem.1 position).1

/-- A project without its links has none. -/
theorem linksAt_unlinked (p : Project) (place : Place) : p.unlinked.linksAt place = [] := by
  cases place with
  | function id =>
    simp only [linksAt, unlinked, Array.getElem?_map, Option.map_map]
    cases p.functions[id.index]? <;> rfl
  | «class» id =>
    simp only [linksAt, unlinked, Array.getElem?_map, Option.map_map]
    cases p.classes[id.index]? <;> rfl

/-! ## One more link -/

/-- A new link is the last one of its place. -/
theorem linksAt_link {place : Place} (there : p.HasPlace place) (l : Link) (at_ : Place) :
    (p.link l place).linksAt at_ = p.linksAt at_ ++ if at_ = place then [l] else [] := by
  cases place with
  | function id =>
    cases at_ with
    | function id' =>
      simp only [link, linkFunction, linksAt, Array.getElem?_modify]
      by_cases same : id' = id
      · subst same
        rw [if_pos rfl, if_pos rfl, Array.getElem?_eq_getElem there]
        rfl
      · have differ : ¬id.index = id'.index := fun h => same (by cases id; cases id'; cases h; rfl)
        rw [if_neg differ, if_neg fun h => same (Place.function.inj h), List.append_nil]
    | «class» => exact (List.append_nil _).symm
  | «class» id =>
    cases at_ with
    | function => exact (List.append_nil _).symm
    | «class» id' =>
      simp only [link, linkClass, linksAt, Array.getElem?_modify]
      by_cases same : id' = id
      · subst same
        rw [if_pos rfl, if_pos rfl, Array.getElem?_eq_getElem there]
        rfl
      · have differ : ¬id.index = id'.index := fun h => same (by cases id; cases id'; cases h; rfl)
        rw [if_neg differ, if_neg fun h => same (Place.class.inj h), List.append_nil]

/-- A project that lacks the place stays as it is. -/
theorem link_of_not_hasPlace {place : Place} (missing : ¬p.HasPlace place) (l : Link) :
    p.link l place = p := by
  cases place with
  | function id =>
    have lacks : ¬id.index < p.functions.size := missing
    rw [link, linkFunction, Array.modify, Array.modifyM, dif_neg lacks]
    rfl
  | «class» id =>
    have lacks : ¬id.index < p.classes.size := missing
    rw [link, linkClass, Array.modify, Array.modifyM, dif_neg lacks]
    rfl

theorem targets_link {place : Place} (there : p.HasPlace place) (target : LinkTarget)
    (at_ : Place) : (p.link ⟨run, target⟩ place).targets run at_ =
      p.targets run at_ ++ if at_ = place then [target] else [] := by
  rw [targets, linksAt_link there, List.filter_append, List.map_append, ← targets]
  split
  · rw [List.filter_cons_of_pos (by simp)]
    rfl
  · rfl

/-! ## Forgetting a run -/

/-- The links of other runs stay, in their order. -/
theorem linksAt_forget (p : Project) (run : RunId) (place : Place) :
    (p.forget run).linksAt place = (p.linksAt place).filter (·.run != run) := by
  cases place with
  | function id =>
    simp only [linksAt, forget, Array.getElem?_map, Option.map_map]
    cases p.functions[id.index]? <;> rfl
  | «class» id =>
    simp only [linksAt, forget, Array.getElem?_map, Option.map_map]
    cases p.classes[id.index]? <;> rfl

/-- No link of a run is left once it is forgotten. -/
theorem targets_forget (p : Project) (run : RunId) (place : Place) :
    (p.forget run).targets run place = [] := by
  rw [targets, linksAt_forget, List.filter_filter, List.map_eq_nil_iff, List.filter_eq_nil_iff]
  intro l _ both
  simp only [beq_iff_eq, bne_iff_ne, Bool.and_eq_true] at both
  exact both.2 both.1

theorem targets_forget_of_ne (differ : other ≠ run) (p : Project) (place : Place) :
    (p.forget run).targets other place = p.targets other place := by
  rw [targets, linksAt_forget, List.filter_filter, targets]
  refine congrArg _ (List.filter_congr fun l _ => ?_)
  by_cases same : l.run = other
  · rw [same, beq_self_eq_true, bne_iff_ne.2 differ]
    rfl
  · rw [beq_eq_false_iff_ne.2 same]
    rfl

/-- A link of a run is forgotten with it. -/
theorem forget_link (p : Project) (run : RunId) (target : LinkTarget) (place : Place) :
    (p.link ⟨run, target⟩ place).forget run = p.forget run := by
  have filter_links (links : List Link) :
      (links ++ [(⟨run, target⟩ : Link)]).filter (·.run != run) =
        links.filter (·.run != run) := by
    rw [List.filter_append, List.filter_cons_of_neg (by simp)]
    exact List.append_nil _
  cases place with
  | function id =>
    simp only [link, linkFunction, forget, mk.injEq, true_and, and_true]
    refine Array.ext_getElem? fun i => ?_
    simp only [Array.getElem?_map, Array.getElem?_modify]
    split
    · cases p.functions[i]? with
      | none => rfl
      | some f => simp only [Option.map_some, filter_links]
    · rfl
  | «class» id =>
    simp only [link, linkClass, forget, mk.injEq, true_and]
    refine Array.ext_getElem? fun i => ?_
    simp only [Array.getElem?_map, Array.getElem?_modify]
    split
    · cases p.classes[i]? with
      | none => rfl
      | some c => simp only [Option.map_some, filter_links]
    · rfl

theorem forget_forget (p : Project) (run : RunId) :
    (p.forget run).forget run = p.forget run := by
  simp only [forget, mk.injEq, true_and, Array.map_map]
  constructor <;> refine Array.map_congr_left fun _ _ => ?_ <;>
    simp only [Function.comp_apply, List.filter_filter, Bool.and_self]

/-- Projects that differ in links of a run alone define the same. -/
theorem unlinked_of_forget (h : q.forget run = p.forget run) : q.unlinked = p.unlinked := by
  rw [← unlinked_forget q run, h, unlinked_forget]

/-- Projects that differ in links of a run alone have the same links of other runs. -/
theorem targets_of_forget (h : q.forget run = p.forget run) (differ : other ≠ run)
    (place : Place) : q.targets other place = p.targets other place := by
  rw [← targets_forget_of_ne differ q, h, targets_forget_of_ne differ]

/-! ## The same links of two runs -/

/-- Both projects have the links of a third one and behind them those of a run each, which lead to the
same targets. -/
structure GainAlike (base : Project) (run other : RunId) (p q : Project) : Prop where
  left : p.unlinked = base.unlinked
  right : q.unlinked = base.unlinked
  links : ∀ place, ∃ targets : List LinkTarget,
    p.linksAt place = base.linksAt place ++ targets.map (Link.mk run) ∧
    q.linksAt place = base.linksAt place ++ targets.map (Link.mk other)

variable {base : Project}

theorem gainAlike_refl (base : Project) (run other : RunId) :
    base.GainAlike run other base base where
  left := rfl
  right := rfl
  links _ := ⟨[], (List.append_nil _).symm, (List.append_nil _).symm⟩

/-- Both runs link a place to one more target. -/
theorem GainAlike.link (h : base.GainAlike run other p q) (target : LinkTarget) (place : Place) :
    base.GainAlike run other (p.link ⟨run, target⟩ place) (q.link ⟨other, target⟩ place) := by
  have same : p.unlinked = q.unlinked := h.left.trans h.right.symm
  by_cases there : p.HasPlace place
  · refine ⟨(unlinked_link ..).trans h.left, (unlinked_link ..).trans h.right, fun at_ => ?_⟩
    obtain ⟨targets, left, right⟩ := h.links at_
    rw [linksAt_link there, linksAt_link ((hasPlace_congr same place).1 there), left, right]
    by_cases here : at_ = place
    · refine ⟨targets ++ [target], ?_, ?_⟩ <;>
        rw [if_pos here, List.append_assoc, List.map_append] <;> rfl
    · refine ⟨targets, ?_, ?_⟩ <;> rw [if_neg here, List.append_nil]
  · have missing : ¬q.HasPlace place := mt (hasPlace_congr same place).2 there
    rw [link_of_not_hasPlace there, link_of_not_hasPlace missing]
    exact h

end Project

end Reenact
