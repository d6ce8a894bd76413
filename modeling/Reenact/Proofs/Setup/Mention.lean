import Reenact.Proofs.Refusal
import Reenact.Proofs.Setup.Entry
import Reenact.Setup.Lines

/-!
# The names that a line mentions

Code for an object is its name where it has one, and otherwise is made of the code for its operands:
its parts, and the arguments and the receiver that it is made with. A line mentions the names that are
met when operands are followed down to objects with names (`Entry.Mentions`).

**The law** (`code_eq_of_agree`): the code of a line is a function of the names that it mentions. Two
namings of the same objects that agree on these give the same code, whatever other names they give.
-/

namespace Reenact

/-- What is written in the statement that repeats a change. A read is repeated without its value. -/
def Change.written : Change → List ObjectId
  | mutation _ receiver args => receiver :: args
  | globalRead .. => []
  | globalRebind _ _ value => [value]
  | attributeRebind target _ value => [target, value]

theorem Change.written_subset_referenced (c : Change) : c.written ⊆ c.referenced := by
  cases c <;> simp [written, referenced]

namespace Setup

open Recording (call_eq_ok object_eq_ok effect_eq_ok)

/-! ## Operands -/

/-- The arguments that are written in a call: those of its parameters. -/
def writtenArguments (p : Project) (d : Definition) (args : Arguments) : List ObjectId :=
  match p.paramsOf d with
  | .ok params => params.filterMap fun param => args.get? (paramName param)
  | .error _ => []

/-- What the code that makes an instance or a generator is given: the arguments of the constructor, or
those of the function or method and the object whose method it is. -/
def inputs (p : Project) (r : Recording) (o : Object) : List ObjectId :=
  match o.kind with
  | .user _ (some init) _ =>
    match r.call? init with
    | some call => writtenArguments p call.definition call.input
    | none => []
  | .generator (some activation) _ =>
    writtenArguments p activation.definition activation.args ++
      match activation.maker with
      | .userObject owner => [owner]
      | .function _ => []
  | _ => []

/-- What is written in the code that makes an object. -/
def operands (p : Project) (r : Recording) (o : Object) : List ObjectId :=
  o.parts ++ inputs p r o

/-- Writing the first object puts down the name of the second: it is the first object, or written
inside its code. `below` are the operands that are followed. -/
inductive Mentions (r : Recording) (names : Naming) (below : Object → List ObjectId) :
    ObjectId → ObjectId → Prop where
  | named {x : ObjectId} (hasName : (names.get? x).isSome = true) : Mentions r names below x x
  | inside {x y z : ObjectId} {o : Object} (unnamed : names.get? x = none)
      (found : r.object? x = some o) (operand : y ∈ below o) (inner : Mentions r names below y z) :
      Mentions r names below x z

/-- What is written in the line of an entry, apart from the name that it assigns to. -/
def Entry.written (r : Recording) (below : Object → List ObjectId) : Entry → List ObjectId
  | .object x =>
    match r.object? x with
    | some o => below o
    | none => []
  | .effect x =>
    match r.effect? x with
    | some e => e.change.written
    | none => []
  | .grown list => list.contained

/-- The line of the entry mentions the name of the object. -/
def Entry.Mentions (r : Recording) (names : Naming) (below : Object → List ObjectId) (entry : Entry)
    (y : ObjectId) : Prop :=
  ∃ x ∈ entry.written r below, Setup.Mentions r names below x y

variable {r : Recording} {names : Naming} {below : Object → List ObjectId}

theorem Mentions.hasName {x y : ObjectId} (h : Mentions r names below x y) :
    (names.get? y).isSome = true := by
  induction h with
  | named hasName => exact hasName
  | inside _ _ _ _ ih => exact ih

theorem Entry.Mentions.hasName {entry : Entry} {y : ObjectId} (h : entry.Mentions r names below y) :
    (names.get? y).isSome = true := by
  obtain ⟨x, -, inner⟩ := h
  exact inner.hasName

/-! ## Code is a function of the names it mentions -/

section Agreement

variable {names' : Naming} {write write' : Writer}

theorem agree_writeList {ids : List ObjectId} (h : ∀ x ∈ ids, Agree (write x) (write' x)) :
    Agree (writeList write ids) (writeList write' ids) :=
  (Agree.mapM h).bind fun _ _ => .refl _

theorem agree_writeSequence {shape : Shape} {contained : List ObjectId}
    (h : ∀ x ∈ contained, Agree (write x) (write' x)) :
    Agree (writeSequence write shape contained) (writeSequence write' shape contained) :=
  (agree_writeList h).bind fun _ _ => .refl _

theorem agree_writeEntry {entry : ObjectId × ObjectId} (key : Agree (write entry.1) (write' entry.1))
    (value : Agree (write entry.2) (write' entry.2)) :
    Agree (writeEntry write entry) (writeEntry write' entry) :=
  key.bind fun _ _ => value.bind fun _ _ => .refl _

/-- Keyword arguments have the values of the mapping. -/
theorem value_mem_of_keywordEntries {mapping : List (ObjectId × ObjectId)}
    {entries : List (String × ObjectId)} (h : keywordEntries r mapping = .ok (some entries))
    {entry : String × ObjectId} (mem : entry ∈ entries) : ∃ key, (key, entry.2) ∈ mapping := by
  induction mapping generalizing entries with
  | nil =>
    cases h
    cases mem
  | cons pair rest ih =>
    obtain ⟨key, value⟩ := pair
    obtain ⟨word, -, h⟩ := bind_eq_ok.1 h
    cases word with
    | none => cases h
    | some name =>
      obtain ⟨others, rest_eq, h⟩ := bind_eq_ok.1 h
      cases others with
      | none => cases h
      | some others =>
        cases h
        rcases List.mem_cons.1 mem with rfl | mem
        · exact ⟨key, List.mem_cons_self⟩
        · obtain ⟨other, there⟩ := ih rest_eq mem
          exact ⟨other, List.mem_cons_of_mem _ there⟩

theorem agree_writeKeywords {x : ObjectId}
    (h : ∀ o, r.object? x = some o → ∀ y ∈ o.parts, Agree (write y) (write' y)) :
    Agree (writeKeywords r write x) (writeKeywords r write' x) := by
  refine (Agree.refl _).bind fun o found => ?_
  have h := h o (object_eq_ok.1 found)
  cases kind : o.kind with
  | map mapping =>
    refine (Agree.refl _).bind fun entries all => ?_
    cases entries with
    | none => exact .refl _
    | some entries =>
      refine Agree.bind (Agree.mapM fun entry mem => ?_) fun _ _ => .refl _
      refine Agree.bind (h entry.2 ?_) fun _ _ => .refl _
      obtain ⟨key, there⟩ := value_mem_of_keywordEntries all (List.mem_mergeSort.1 mem)
      rw [Object.parts, kind]
      exact List.mem_flatMap.2 ⟨(key, entry.2), there, by simp⟩
  | _ => exact .refl _

/-- Two writers and the namings behind them put down the same for an argument: its name, its code, and
where it has no name the code for each of its parts. -/
structure AgreeOn (r : Recording) (names names' : Naming) (write write' : Writer) (x : ObjectId) :
    Prop where
  name : names.get? x = names'.get? x
  whole : Agree (write x) (write' x)
  parts : names.get? x = none → ∀ o, r.object? x = some o → ∀ y ∈ o.parts,
    Agree (write y) (write' y)

theorem agree_addArgument {param : String} {value : ObjectId}
    (h : AgreeOn r names names' write write' value) (a : ArgumentList) :
    Agree (addArgument r names write a param value) (addArgument r names' write' a param value) := by
  unfold addArgument
  rw [← h.name]
  cases paramKind param with
  | plain => exact h.whole.bind fun _ _ => .refl _
  | extra =>
    refine (Agree.refl _).bind fun o found => ?_
    cases name : names.get? value with
    | some name => exact .refl _
    | none =>
      have parts := h.parts name o (object_eq_ok.1 found)
      rw [Object.parts] at parts
      cases kind : o.kind with
      | sequence shape contained =>
        rw [kind] at parts
        exact (Agree.mapM parts).bind fun _ _ => .refl _
      | _ => exact h.whole.bind fun _ _ => .refl _
  | keywords =>
    cases name : names.get? value with
    | some name =>
      -- the keyword arguments were worked out in vain
      intro s t first second
      obtain ⟨_, -, first⟩ := bind_eq_ok.1 first
      obtain ⟨_, -, second⟩ := bind_eq_ok.1 second
      cases first
      cases second
      rfl
    | none =>
      refine (agree_writeKeywords (h.parts name)).bind fun keywords _ => ?_
      cases keywords with
      | some arguments => exact .refl _
      | none => exact h.whole.bind fun _ _ => .refl _

theorem agree_writeCall {callee callee' : Snippet} {input : Arguments} {params : List String}
    (same : callee = callee') (h : ∀ param ∈ params, ∀ x, input.get? (paramName param) = some x →
      AgreeOn r names names' write write' x) :
    Agree (writeCall r names write callee input params)
      (writeCall r names' write' callee' input params) := by
  subst same
  refine Agree.bind (Agree.foldlM (fun param mem a => ?_) _) fun _ _ => .refl _
  cases given : input.get? (paramName param) with
  | none => exact .refl _
  | some x => exact agree_addArgument (h param mem x given) a

theorem mem_writtenArguments {p : Project} {d : Definition} {input : Arguments}
    {params : List String} (params_eq : p.paramsOf d = .ok params) {param : String}
    (mem : param ∈ params) {x : ObjectId} (given : input.get? (paramName param) = some x) :
    x ∈ writtenArguments p d input := by
  simp only [writtenArguments, params_eq]
  exact List.mem_filterMap.2 ⟨param, mem, given⟩

/-- Code that makes an object is a function of the code for its operands. -/
theorem agree_writeDefinition {p : Project} {x : ObjectId}
    (h : ∀ o, r.object? x = some o → ∀ y ∈ operands p r o, AgreeOn r names names' write write' y) :
    Agree (writeDefinition p r names write x) (writeDefinition p r names' write' x) := by
  refine (Agree.refl _).bind fun o found => ?_
  have h := h o (object_eq_ok.1 found)
  have parts : ∀ y ∈ o.kind.parts, Agree (write y) (write' y) := fun y mem =>
    (h y (List.mem_append_left _ mem)).whole
  have given : ∀ y ∈ inputs p r o, AgreeOn r names names' write write' y := fun y mem =>
    h y (List.mem_append_right _ mem)
  cases kind : o.kind with
  | immutable code imports => exact .refl _
  | sequence shape contained =>
    rw [kind] at parts
    exact agree_writeSequence parts
  | map mapping =>
    rw [kind] at parts
    refine Agree.bind (Agree.mapM fun entry mem => ?_) fun _ _ => .refl _
    exact agree_writeEntry (parts _ (List.mem_flatMap.2 ⟨entry, mem, by simp⟩))
      (parts _ (List.mem_flatMap.2 ⟨entry, mem, by simp⟩))
  | exception args =>
    rw [kind] at parts
    exact (agree_writeList parts).bind fun _ _ => .refl _
  | library format args imports =>
    rw [kind] at parts
    exact (agree_writeList parts).bind fun _ _ => .refl _
  | unknown hint => exact .refl _
  | user cls initCall uses =>
    refine (Agree.refl _).bind fun c _ => ?_
    cases initCall with
    | none => exact .refl _
    | some init =>
      refine (Agree.refl _).bind fun call there => (Agree.refl _).bind fun params params_eq => ?_
      refine Agree.bind ?_ fun _ _ => .refl _
      refine agree_writeCall rfl fun param mem y argument => given y ?_
      simp only [inputs, kind, call_eq_ok.1 there]
      exact mem_writtenArguments params_eq mem argument
  | generator activation calls =>
    cases activation with
    | none => exact .refl _
    | some activation =>
      refine (Agree.refl _).bind fun name _ => (Agree.refl _).bind fun params params_eq => ?_
      simp only [inputs, kind, List.mem_append] at given
      have arguments (param : String) (mem : param ∈ params) (y : ObjectId)
          (argument : activation.args.get? (paramName param) = some y) :
          AgreeOn r names names' write write' y :=
        given y (.inl (mem_writtenArguments params_eq mem argument))
      cases maker : activation.maker with
      | function _ => exact (agree_writeCall rfl arguments).bind fun _ _ => .refl _
      | userObject owner =>
        rw [maker] at given
        refine (given owner (.inr (List.mem_singleton.2 rfl))).whole.bind fun _ _ => ?_
        exact agree_writeCall rfl arguments

/-- The namings give names to the same objects. -/
def HaveSameObjects (names names' : Naming) : Prop :=
  ∀ x, (names.get? x).isSome = (names'.get? x).isSome

/-- An object that does not have a name in one of the namings has none in the other. -/
theorem HaveSameObjects.unnamed (same : HaveSameObjects names names') {x : ObjectId}
    (h : names.get? x = none) : names'.get? x = none := by
  rw [← Option.not_isSome_iff_eq_none, ← same x, h]
  exact Bool.false_ne_true

/-- The namings agree on all names that writing the object mentions. -/
def AgreeBelow (p : Project) (r : Recording) (names names' : Naming) (x : ObjectId) : Prop :=
  ∀ y, Mentions r names (operands p r) x y → names.get? y = names'.get? y

variable {p : Project}

theorem AgreeBelow.name {x : ObjectId} (h : AgreeBelow p r names names' x)
    (same : HaveSameObjects names names') : names.get? x = names'.get? x := by
  cases name : names.get? x with
  | some _ => rw [← h x (.named (by rw [name]; rfl)), name]
  | none => rw [same.unnamed name]

theorem AgreeBelow.operand {x y : ObjectId} {o : Object} (h : AgreeBelow p r names names' x)
    (unnamed : names.get? x = none) (found : r.object? x = some o) (mem : y ∈ operands p r o) :
    AgreeBelow p r names names' y :=
  fun z mention => h z (.inside unnamed found mem mention)

/-- Writers that agree on everything with agreeable names below agree on it as an argument. -/
theorem AgreeBelow.agreeOn {x : ObjectId} (h : AgreeBelow p r names names' x)
    (same : HaveSameObjects names names')
    (agree : ∀ y, AgreeBelow p r names names' y → Agree (write y) (write' y)) :
    AgreeOn r names names' write write' x :=
  ⟨h.name same, agree x h, fun unnamed _ found y part =>
    agree y (h.operand unnamed found (List.mem_append_left _ part))⟩

/-- The code of an object is a function of the names that writing it mentions. -/
theorem agree_constructWithin (same : HaveSameObjects names names') (depth : Nat) {x : ObjectId}
    (h : AgreeBelow p r names names' x) :
    Agree (constructWithin p r names depth x) (constructWithin p r names' depth x) := by
  induction depth generalizing x with
  | zero =>
    unfold constructWithin
    rw [← h.name same]
    cases names.get? x <;> exact .refl _
  | succ depth ih =>
    unfold constructWithin
    rw [← h.name same]
    cases unnamed : names.get? x with
    | some _ => exact .refl _
    | none =>
      exact agree_writeDefinition fun o found y operand =>
        (h.operand unnamed found operand).agreeOn same fun z below => ih below

theorem agree_writeMutation {op : Mutation} {receiver : ObjectId} {args : List ObjectId}
    (target : Agree (write receiver) (write' receiver))
    (h : ∀ x ∈ args, Agree (write x) (write' x)) :
    Agree (writeMutation write op receiver args) (writeMutation write' op receiver args) := by
  refine target.bind fun _ _ => ?_
  split
  · rename_i key value
    exact (h key (by simp)).bind fun _ _ => (h value (by simp)).bind fun _ _ => .refl _
  · rename_i key
    exact (h key (by simp)).bind fun _ _ => .refl _
  · exact (agree_writeList h).bind fun _ _ => .refl _

theorem agree_writeChange {c : Change} (h : ∀ x ∈ c.written, Agree (write x) (write' x)) :
    Agree (writeChange write c) (writeChange write' c) := by
  cases c with
  | mutation op receiver args =>
    obtain ⟨target, others⟩ := List.forall_mem_cons.1 h
    exact agree_writeMutation target others
  | globalRead => exact .refl _
  | globalRebind module name value =>
    have value := List.forall_mem_singleton.1 h
    exact value.bind fun _ _ => .refl _
  | attributeRebind target name value =>
    obtain ⟨target, others⟩ := List.forall_mem_cons.1 h
    exact target.bind fun _ _ => (List.forall_mem_singleton.1 others).bind fun _ _ => .refl _

/-- **Mentions are complete**: two namings of the same objects that agree on the names that a line
mentions give it the same code. -/
theorem code_eq_of_agree (same : HaveSameObjects names names') {entry : Entry}
    (h : ∀ y, entry.Mentions r names (operands p r) y → names.get? y = names'.get? y)
    {line line' : Line} (written : lineOf p r names entry = .ok line)
    (written' : lineOf p r names' entry = .ok line') : line.code = line'.code := by
  have below (x : ObjectId) (mem : x ∈ entry.written r (operands p r)) :
      AgreeBelow p r names names' x :=
    fun y mention => h y ⟨x, mem, mention⟩
  have agree (x : ObjectId) (h : AgreeBelow p r names names' x) :
      Agree (construct p r names x) (construct p r names' x) :=
    agree_constructWithin same _ h
  cases entry with
  | object x =>
    obtain ⟨code, code_eq, made⟩ := bind_eq_ok.1 written
    obtain ⟨code', code_eq', made'⟩ := bind_eq_ok.1 written'
    cases made
    cases made'
    refine agree_writeDefinition (fun o found y operand => ?_) code code' code_eq code_eq'
    simp only [Entry.written, found] at below
    exact (below y operand).agreeOn same agree
  | effect x =>
    obtain ⟨code, code_eq, made⟩ := bind_eq_ok.1 written
    obtain ⟨code', code_eq', made'⟩ := bind_eq_ok.1 written'
    cases made
    cases made'
    refine (Agree.refl _).bind (fun e found => ?_) code code' code_eq code_eq'
    simp only [Entry.written, effect_eq_ok.1 found] at below
    exact agree_writeChange fun y mem => agree y (below y mem)
  | grown list =>
    obtain ⟨code, code_eq, made⟩ := bind_eq_ok.1 written
    obtain ⟨code', code_eq', made'⟩ := bind_eq_ok.1 written'
    cases made
    cases made'
    exact agree_writeSequence (fun y mem => agree y (below y mem)) code code' code_eq code_eq'

end Agreement

end Setup

end Reenact
