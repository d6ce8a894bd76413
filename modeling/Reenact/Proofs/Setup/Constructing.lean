import Mathlib.Data.List.TakeWhile
import Reenact.Proofs.Setup.Distributing
import Reenact.Proofs.Trace.Methods

/-!
# Arguments of constructors

An instance is written as the call of its class with the arguments that its constructor call was
recorded with. Two places decide which argument is the receiver, and so is left out: the tracer takes
the first plain argument of the frame, or the first further one where there is no plain one; the writer
leaves out the first parameter that the constructor declares. They agree where that is a plain
parameter.

**The law** (`keepsArguments_iff`): a rendered instance keeps the arguments of its constructor exactly
when the constructor has a plain parameter, or no further positional arguments besides the receiver.
-/

namespace Reenact

/-! ## What is written for an instance -/

namespace Setup

variable {p : Project} {r : Recording} {names : Naming}

theorem IsCall.addImport {s callee : Snippet} {g : Passed} (h : IsCall s callee g) (i : Import) :
    IsCall (s.addImport i) (callee.addImport i) g where
  code := h.code
  imports j := by
    simp only [Snippet.addImport, ImportSet.mem_insert, h.imports, or_assoc]
  hasGap := h.hasGap

/-- An instance that was made by a call of its constructor is written as that call. -/
theorem exists_call_of_construct {x : ObjectId} {o : Object} {cls : ClassId} {init : CallId}
    {uses : List Use} {s : Snippet} (unnamed : names.get? x = none) (there : r.object? x = some o)
    (kind : o.kind = .user cls (some init) uses) (written : construct p r names x = .ok s) :
    ∃ cl c params code, p.class? cls = .ok cl ∧ r.call? init = some c ∧
      p.paramsOf c.definition = .ok params ∧
      writeCall r names (construct p r names) (.plain cl.name) c.input params = .ok code ∧
      s = code.addImport (.member cl.module cl.name) := by
  have written := (construct_eq_ok_iff unnamed).1 written
  unfold define writeDefinition at written
  obtain ⟨o', found, written⟩ := bind_eq_ok.1 written
  cases there.symm.trans (Recording.object_eq_ok.1 found)
  rw [kind] at written
  obtain ⟨cl, isClass, written⟩ := bind_eq_ok.1 written
  obtain ⟨c, found, written⟩ := bind_eq_ok.1 written
  obtain ⟨params, declared, written⟩ := bind_eq_ok.1 written
  obtain ⟨code, written, eq⟩ := bind_eq_ok.1 written
  exact ⟨cl, c, params, code, isClass, Recording.call_eq_ok.1 found, declared, written,
    (pure_eq_ok.1 eq).symm⟩

/-! ## Parameters behind the first one -/

/-- Some of the parameters. -/
def ParamList.narrow (ps : ParamList) (plain : List String) (extra keywords : Option String)
    (fewer : (plain ++ extra.toList ++ keywords.toList).Sublist
      (ps.plain ++ ps.extra.toList ++ ps.keywords.toList)) : ParamList where
  plain := plain
  extra := extra
  keywords := keywords
  distinct := ps.distinct.sublist fewer
  unstarred name mem := ps.unstarred name (fewer.subset mem)

/-- The arguments in order: the plain ones by position, then the further ones. -/
def KeepsArguments (p : Project) (r : Recording) (named : List (String × ObjectId))
    (extra keywords : Option ObjectId) (g : Passed) : Prop :=
  ∃ d : Distribution, List.Forall₂ (Writes p r .empty) named d.front ∧ d.back = [] ∧
    SharesItems p r .empty extra d.extra ∧ SharesEntries p r .empty keywords d.keywords ∧
    g = d.passed

/-- The definition is a method that declares the parameters of the frame. -/
structure Declares (p : Project) (definition : Definition) (f : Frame) (ps : ParamList) : Prop where
  plain : ps.plain = f.args.named.map Prod.fst
  extra : ps.extra = f.args.extra.map Prod.fst
  keywords : ps.keywords = f.args.keywords.map Prod.fst
  params : ∃ method m, definition = .method method ∧ p.method? method = .ok m ∧ m.params = ps.params

theorem Declares.paramsOf {definition : Definition} {f : Frame} {ps : ParamList}
    (h : Declares p definition f ps) : p.paramsOf definition = .ok ps.params.tail := by
  obtain ⟨method, m, rfl, found, params⟩ := h.params
  simp only [Project.paramsOf, found, Except.map, params]

section Kept

variable {input : Arguments} {ps : ParamList} {d : Distribution}
  {named : List (String × ObjectId)} {extra keywords : Option (String × ObjectId)}

/-- Where all plain parameters have arguments, all of them are passed by position. -/
theorem Distributes.front_of_given (h : Distributes p r .empty ps input d)
    (plain : ps.plain = named.map Prod.fst)
    (found : ∀ entry ∈ named, input.get? entry.1 = some entry.2) :
    List.Forall₂ (Writes p r .empty) named d.front ∧ d.back = [] := by
  have all : ∀ name ∈ ps.plain, (input.get? name).isSome := by
    rw [plain]
    intro name mem
    obtain ⟨entry, inside, rfl⟩ := List.mem_map.1 mem
    rw [found entry inside]
    rfl
  have gives : given input ps.plain = named := by
    rw [plain, given, List.filterMap_map]
    refine (List.filterMap_congr (g := some) fun entry mem => ?_).trans List.filterMap_some
    rw [Function.comp_apply, found entry mem]
    rfl
  have front := h.front
  have back := h.back
  rw [List.takeWhile_eq_self_iff.2 all, gives] at front
  rw [List.dropWhile_eq_nil_iff.2 all] at back
  exact ⟨front, List.forall₂_nil_left_iff.1 back⟩

theorem bind_get?_of_found {item? : Option (String × ObjectId)}
    (found : ∀ entry ∈ item?, input.get? entry.1 = some entry.2) :
    (item?.map Prod.fst).bind input.get? = item?.map Prod.snd := by
  cases item? with
  | none => rfl
  | some entry => exact found entry rfl

variable {callee s : Snippet}

/-- Behind a plain parameter, a call has all other arguments. -/
theorem keepsArguments_of_writeCall {first : String}
    (plain : ps.plain = first :: named.map Prod.fst) (further : ps.extra = extra.map Prod.fst)
    (others : ps.keywords = keywords.map Prod.fst)
    (answer : writeCall r .empty (construct p r .empty) callee
      (.ofList (named ++ extra.toList ++ keywords.toList)) ps.params.tail = .ok s) :
    ∃ g, s = g.spell callee ∧
      KeepsArguments p r named (extra.map Prod.snd) (keywords.map Prod.snd) g := by
  have distinct : ((named ++ extra.toList ++ keywords.toList).map Prod.fst).Nodup := by
    have distinct := ps.distinct
    rw [plain, further, others] at distinct
    simp only [List.map_append, ← Option.toList_map]
    exact (List.nodup_cons.1 distinct).2
  have found (entry : String × ObjectId) (mem : entry ∈ named ++ extra.toList ++ keywords.toList) :=
    Arguments.get?_ofList_of_mem distinct mem
  let behind := ps.narrow (named.map Prod.fst) ps.extra ps.keywords (by
    rw [plain]
    exact List.sublist_cons_self ..)
  have params : ps.params.tail = behind.params := by
    rw [ParamList.params, plain]
    rfl
  rw [params] at answer
  obtain ⟨d, distributes, rfl⟩ := distributes_of_writeCall answer
  obtain ⟨front, back⟩ := distributes.front_of_given rfl fun entry mem =>
    found entry (List.mem_append_left _ (List.mem_append_left _ mem))
  have items := distributes.extra
  have entries := distributes.keywords
  change SharesItems p r .empty (ps.extra.bind _) _ at items
  change SharesEntries p r .empty (ps.keywords.bind _) _ at entries
  rw [further, bind_get?_of_found fun entry mem => found entry
    (List.mem_append_left _ (List.mem_append_right _ (Option.mem_toList.2 mem)))] at items
  rw [others, bind_get?_of_found fun entry mem => found entry
    (List.mem_append_right _ (Option.mem_toList.2 mem))] at entries
  exact ⟨d.passed, rfl, d, front, back, items, entries, rfl⟩

/-- What passes no positional arguments keeps further ones only if there were none. -/
theorem keepsArguments_iff_of_lost {x : ObjectId} {keywords : Option ObjectId} (front : d.front = [])
    (back : d.back = []) (items : d.extra = ⟨[], none⟩)
    (entries : SharesEntries p r .empty keywords d.keywords) :
    KeepsArguments p r [] (some x) keywords d.passed ↔
      ∃ o shape, r.object? x = some o ∧ o.kind = .sequence shape [] := by
  constructor
  · rintro ⟨d', front', -, items', -, same⟩
    have front' : d'.front = [] := List.forall₂_nil_left_iff.1 front'
    have none : d'.extra = ⟨[], none⟩ := by
      have single := congrArg Passed.positional same
      have whole := congrArg Passed.starred same
      simp only [Distribution.passed, front, front', items, List.map_nil, List.nil_append]
        at single whole
      generalize d'.extra = share at single whole
      cases share
      cases single
      cases whole
      rfl
    generalize d'.extra = share at items' none
    cases items' with
    | @parts id o shape contained codes unnamed found kind written =>
      cases none
      obtain rfl := List.forall₂_nil_right_iff.1 (mapM_eq_ok.1 written)
      exact ⟨o, shape, found, kind⟩
    | whole => cases none
  · rintro ⟨o, shape, found, kind⟩
    refine ⟨d, front ▸ .nil, back, ?_, entries, rfl⟩
    rw [items]
    exact .parts rfl found kind rfl

/-- Without plain parameter, a call has the keyword arguments alone. That is all if there is nothing
else. -/
theorem keepsArguments_iff_of_writeCall {entry : String × ObjectId} (plain : ps.plain = [])
    (further : ps.extra = some entry.1) (others : ps.keywords = keywords.map Prod.fst)
    (answer : writeCall r .empty (construct p r .empty) callee
      (.ofList (entry :: keywords.toList)) ps.params.tail = .ok s) :
    ∃ g, s = g.spell callee ∧
      (KeepsArguments p r [] (some entry.2) (keywords.map Prod.snd) g ↔
        ∃ o shape, r.object? entry.2 = some o ∧ o.kind = .sequence shape []) := by
  have distinct : ((entry :: keywords.toList).map Prod.fst).Nodup := by
    have distinct := ps.distinct
    rw [plain, further, others] at distinct
    simp only [List.map_cons, ← Option.toList_map]
    exact distinct
  let behind := ps.narrow [] none ps.keywords (by
    rw [plain, further]
    exact List.sublist_cons_self ..)
  have params : ps.params.tail = behind.params := by
    rw [ParamList.params, plain, further]
    rfl
  rw [params] at answer
  obtain ⟨d, distributes, rfl⟩ := distributes_of_writeCall answer
  have items := distributes.extra
  have entries := distributes.keywords
  change SharesItems p r .empty none _ at items
  change SharesEntries p r .empty (ps.keywords.bind _) _ at entries
  rw [others, bind_get?_of_found fun keyword mem => Arguments.get?_ofList_of_mem distinct
    (List.mem_cons_of_mem _ (Option.mem_toList.2 mem))] at entries
  exact ⟨d.passed, rfl, keepsArguments_iff_of_lost (List.forall₂_nil_left_iff.1 distributes.front)
    (List.forall₂_nil_left_iff.1 distributes.back) (eq_of_sharesItems_none items) entries⟩

end Kept

end Setup

/-! ## Instances of a watched program -/

namespace Watch

open Setup (construct Declares Distribution IsCall KeepsArguments ParamList Passed)

namespace Variadic

/-- A class whose constructor takes the receiver with all other arguments. -/
def project : Project where
  root := "/p"
  functions := #[]
  classes := #[⟨"Box", "m", [⟨"__init__", ["*args"], false⟩], [], []⟩]

def watch : Watch := ⟨project, ⟨0⟩, .standard, .default, .empty, []⟩

def box : Value := .object ⟨.observed 1, "Box", "m", [("__init__", ⟨10⟩)]⟩

def one : Value := .literal ⟨.observed 2, "int", builtinModule, []⟩ (.int 1)

def null : Value := .literal ⟨.observed 4, "NoneType", builtinModule, []⟩ .none

/-- The box is made from the number. -/
def frame : Frame where
  code := ⟨⟨10⟩, "__init__", "/p/m.py", false, false⟩
  args := ⟨[],
    some ("args", .sequence ⟨.observed 3, "tuple", builtinModule, []⟩ .tuple [box, one]), none⟩
  generator := none

def events : List Event := [.call frame, .ret null none]

def recording : Recording := watch.recording events

theorem records : watch.Records events recording := ⟨fun _ => false, .inl rfl⟩

/-- The tuple without the box. -/
def tail : NamedValues := [("args", .sequence (builtHeader (.built 1) "tuple") .tuple [one])]

def opened : Recorder × Bool :=
  watch.start.observer.opened (watch.start.observer.session.callMethod ⟨⟨0⟩, 0⟩ box tail none)

/-- The tracer after the call has been opened. -/
def entered : Tracer Recorder :=
  ((({ watch.start with handles := ⟨1⟩, observer := opened.1 } : Tracer Recorder).enter true).request
    [⟨10⟩]).1

/-- The search for a method does not compute, so the first event is taken by hand. -/
theorem step_start : (watch.start.step (.call frame)).1 = entered := by
  have followed : watch.start.isIgnored frame = false := by decide +kernel
  have resolved : watch.start.observer.resolveMethod "__init__" box = some ⟨⟨0⟩, 0⟩ :=
    Option.bind_eq_some_iff.2
      ⟨⟨0⟩, by decide +kernel, Project.findMethod_of_own (by decide +kernel)⟩
  have called : watch.start.observer.methodCalled "__init__" box tail frame = opened := by
    rw [Recorder.methodCalled, resolved]
    rfl
  have told : watch.start.report frame =
      ({ watch.start with
          handles := ⟨1⟩
          observer := (watch.start.observer.methodCalled "__init__" box tail frame).1 },
        (watch.start.observer.methodCalled "__init__" box tail frame).2) := rfl
  have descends : opened.2 = true := by decide +kernel
  rw [called, descends] at told
  rw [Tracer.step, Tracer.onCall, followed, told]
  rfl

theorem recording_call : watch.recording [.call frame] = entered.recording := by
  rw [← step_start]
  rfl

theorem recording_eq : recording = (entered.run [.ret null none]).recording := by
  rw [← step_start]
  rfl

theorem captured : (watch.recording [.call frame]).HasCall ⟨0⟩ := by
  rw [recording_call, Recording.hasCall_iff]
  decide +kernel

def boxObject : Object := ⟨⟨0⟩, ⟨1⟩, "box_instance", "Box", "m", .user ⟨0⟩ (some ⟨0⟩) [.call ⟨0⟩]⟩

theorem boxObject_eq : recording.object? ⟨0⟩ = some boxObject := by
  rw [recording_eq]
  decide +kernel

/-- The constructor call. -/
def call : Call where
  id := ⟨0⟩
  kind := .method ⟨0⟩
  definition := .method ⟨⟨0⟩, 0⟩
  input := .ofList [("args", ⟨2⟩)]
  outcome := some (.returned ⟨3⟩)
  effects := []
  caller := none
  subcalls := []
  moment := ⟨4⟩
  completedAt := some ⟨6⟩

theorem call_eq : recording.call? ⟨0⟩ = some call := by
  rw [recording_eq]
  decide +kernel

def params : ParamList where
  plain := []
  extra := some "args"
  keywords := none
  distinct := by decide
  unstarred := by decide

theorem declares : Declares project call.definition frame params where
  plain := rfl
  extra := rfl
  keywords := rfl
  params := ⟨⟨⟨0⟩, 0⟩, _, rfl, rfl, rfl⟩

/-- The tuple without the box is recorded as the third object. -/
theorem captures : Captures (watch.recording [.call frame]) .start frame [] (some ("args", ⟨2⟩))
    none := by
  refine ⟨.nil, .cons ⟨rfl, ?_⟩ .nil, .nil⟩
  rw [recording_call]
  decide +kernel

theorem code_construct :
    (construct project recording .empty ⟨0⟩).map Snippet.code = .ok "Box()" := by
  rw [recording_eq]
  decide +kernel

/-- A call that keeps the arguments has the number. -/
theorem texts_of_keepsArguments {g : Passed}
    (keeps : KeepsArguments project recording [] (some ⟨2⟩) none g) : g.texts = ["1"] := by
  obtain ⟨d, front, back, items, entries, rfl⟩ := keeps
  have isTail : (recording.object? ⟨2⟩).map Object.kind = some (.sequence .tuple [⟨1⟩]) := by
    rw [recording_eq]
    decide +kernel
  have one : construct project recording .empty ⟨1⟩ = .ok (.plain "1") := by
    rw [recording_eq]
    decide +kernel
  obtain ⟨tail, found, kind⟩ := Option.map_eq_some_iff.1 isTail
  have items : d.extra = ⟨[.plain "1"], none⟩ := by
    generalize d.extra = share at items
    cases items with
    | parts unnamed there same coded =>
      cases found.symm.trans there
      cases kind.symm.trans same
      obtain _ | ⟨first, others⟩ := mapM_eq_ok.1 coded
      cases one.symm.trans first
      cases others
      rfl
    | whole there closed coded =>
      cases found.symm.trans there
      exact absurd kind (closed rfl _ _)
  have entries := Setup.eq_of_sharesEntries_none entries
  have front : d.front = [] := List.forall₂_nil_left_iff.1 front
  simp [Passed.texts, Distribution.passed, front, back, items, entries, Snippet.plain]

end Variadic

/-- A rendered instance is the call of its class. It keeps the arguments that the constructor call was
recorded with, and has no others, exactly when the constructor has a plain parameter or no further
positional arguments besides the receiver. -/
theorem keepsArguments_iff (w : Watch) (before : List Event) (f : Frame) (after : List Event)
    (r : Recording) (recorded : w.Records (before ++ .call f :: after) r)
    (captured : (w.recording (before ++ [.call f])).HasCall ⟨(w.recording before).calls.size⟩)
    (x : ObjectId) (o : Object) (cls : ClassId) (uses : List Use) (there : r.object? x = some o)
    (kind : o.kind = .user cls (some ⟨(w.recording before).calls.size⟩) uses)
    (p : Project) (c : Call) (found : r.call? ⟨(w.recording before).calls.size⟩ = some c)
    (ps : ParamList) (declares : Declares p c.definition f ps) :
    ∃ named extra keywords,
      Captures (w.recording (before ++ [.call f])) (w.after before).handles f named extra keywords ∧
      ∀ s, construct p r .empty x = .ok s → ∃ cl g, p.class? cls = .ok cl ∧
        IsCall s ((Snippet.plain cl.name).addImport (.member cl.module cl.name)) g ∧
        (KeepsArguments p r named (extra.map Prod.snd) (keywords.map Prod.snd) g ↔
          f.args.named ≠ [] ∨ ∃ entry rest shape, extra = some entry ∧
            r.object? entry.2 = some rest ∧ rest.kind = .sequence shape []) := by
  obtain ⟨receiver, named, extra, keywords, input, captures⟩ :=
    recorded.exists_captures captured found (recorded.kind_of_initCall there kind found)
  refine ⟨named, extra, keywords, captures, fun s written => ?_⟩
  obtain ⟨cl, c', params, code, isClass, found', declared, written, rfl⟩ :=
    Setup.exists_call_of_construct rfl there kind written
  cases found.symm.trans found'
  cases declares.paramsOf.symm.trans declared
  rw [input] at written
  have plain := Recording.map_fst_of_knows captures.named
  have further := Recording.map_fst_of_knows_toList captures.extra
  have others := Recording.map_fst_of_knows_toList captures.keywords
  have declared := declares.plain
  unfold Frame.furtherArgument at further
  cases eq : f.args.named with
  | cons first rest =>
    rw [eq] at plain further declared
    obtain ⟨g, rfl, keeps⟩ := Setup.keepsArguments_of_writeCall
      (show ps.plain = first.1 :: named.map Prod.fst by rw [declared, plain]; rfl)
      (declares.extra.trans further.symm) (declares.keywords.trans others.symm) written
    refine ⟨cl, g, isClass, (g.isCall_spell _).addImport _, iff_of_true keeps (.inl ?_)⟩
    exact List.cons_ne_nil first rest
  | nil =>
    -- the receiver was the first of the further arguments
    obtain ⟨⟨name, tuple⟩, isSome⟩ := Option.isSome_iff_exists.1 (receiver eq)
    rw [eq] at plain further declared
    rw [isSome] at further
    obtain rfl := List.map_eq_nil_iff.1 plain
    obtain ⟨entry, rfl, named⟩ := Option.map_eq_some_iff.1 further
    have isFurther : ps.extra = some entry.1 := by
      rw [declares.extra, isSome, named]
      rfl
    obtain ⟨g, rfl, keeps⟩ := Setup.keepsArguments_iff_of_writeCall declared isFurther
      (declares.keywords.trans others.symm) written
    refine ⟨cl, g, isClass, (g.isCall_spell _).addImport _, keeps.trans ?_⟩
    constructor
    · rintro ⟨rest, shape, there, none⟩
      exact .inr ⟨entry, rest, shape, rfl, there, none⟩
    · rintro (some | ⟨_, rest, shape, same, there, none⟩)
      · exact absurd rfl some
      · cases same
        exact ⟨rest, shape, there, none⟩

theorem keepsArguments_iff_variadic : Variadic.watch.Records Variadic.events Variadic.recording ∧
    (Variadic.watch.recording [.call Variadic.frame]).HasCall ⟨0⟩ ∧
    Variadic.recording.object? ⟨0⟩ = some Variadic.boxObject ∧
    Variadic.recording.call? ⟨0⟩ = some Variadic.call ∧
    Declares Variadic.project Variadic.call.definition Variadic.frame Variadic.params ∧
    ∃ named extra keywords,
      Captures (Variadic.watch.recording [.call Variadic.frame]) .start Variadic.frame named extra
        keywords ∧
      ∀ s, construct Variadic.project Variadic.recording .empty ⟨0⟩ = .ok s → ∃ cl g,
        Variadic.project.class? ⟨0⟩ = .ok cl ∧
        IsCall s ((Snippet.plain cl.name).addImport (.member cl.module cl.name)) g ∧
        (KeepsArguments Variadic.project Variadic.recording named (extra.map Prod.snd)
            (keywords.map Prod.snd) g ↔
          Variadic.frame.args.named ≠ [] ∨ ∃ entry rest shape, extra = some entry ∧
            Variadic.recording.object? entry.2 = some rest ∧ rest.kind = .sequence shape []) :=
  ⟨Variadic.records, Variadic.captured, Variadic.boxObject_eq, Variadic.call_eq, Variadic.declares,
    keepsArguments_iff Variadic.watch [] Variadic.frame [.ret Variadic.null none] Variadic.recording
      Variadic.records Variadic.captured ⟨0⟩ Variadic.boxObject ⟨0⟩ [.call ⟨0⟩] Variadic.boxObject_eq
      rfl Variadic.project Variadic.call Variadic.call_eq Variadic.params Variadic.declares⟩

/-- The number is lost where the receiver is the first of the further arguments. -/
theorem not_keepsArguments : ¬∀ (w : Watch) (before : List Event) (f : Frame) (after : List Event)
    (r : Recording), w.Records (before ++ .call f :: after) r →
    (w.recording (before ++ [.call f])).HasCall ⟨(w.recording before).calls.size⟩ →
    ∀ x o cls uses, r.object? x = some o →
      o.kind = .user cls (some ⟨(w.recording before).calls.size⟩) uses →
      ∀ p c, r.call? ⟨(w.recording before).calls.size⟩ = some c →
        ∀ ps, Declares p c.definition f ps → ∀ named extra keywords,
          Captures (w.recording (before ++ [.call f])) (w.after before).handles f named extra keywords →
            ∀ s cl, construct p r .empty x = .ok s → p.class? cls = .ok cl → ∃ g,
              IsCall s ((Snippet.plain cl.name).addImport (.member cl.module cl.name)) g ∧
              KeepsArguments p r named (extra.map Prod.snd) (keywords.map Prod.snd) g := by
  intro keepsAll
  obtain ⟨s, written, text⟩ := map_eq_ok.1 Variadic.code_construct
  obtain ⟨g, isCall, keeps⟩ := keepsAll Variadic.watch [] Variadic.frame [.ret Variadic.null none]
    Variadic.recording Variadic.records Variadic.captured ⟨0⟩ Variadic.boxObject ⟨0⟩ [.call ⟨0⟩]
    Variadic.boxObject_eq rfl Variadic.project Variadic.call Variadic.call_eq Variadic.params
    Variadic.declares [] (some ("args", ⟨2⟩)) none Variadic.captures s
    ⟨"Box", "m", [⟨"__init__", ["*args"], false⟩], [], []⟩ written rfl
  have code := isCall.code
  rw [text, Variadic.texts_of_keepsArguments keeps] at code
  exact absurd code (by decide +kernel)

end Watch

end Reenact
