import Reenact.Proofs.Recording.Content
import Reenact.Proofs.Setup.Passing

/-!
# Where code has gaps

Asking whether code can make an object, and writing that code, both follow parts, and each does so on
its own. The writer never loses a gap on the way: code put together from the code of parts has a gap
exactly when one of these has (`hasGap_iff_of_composite`).

**The law** (`showsGaps`): in a reachable recording, code for an object has a gap exactly when code
cannot make the object, or when a call has a gap that makes an instance or a generator inside it.
So what code cannot make always shows as a gap, and where nothing inside is made by a call, nothing
else does.
-/

namespace Reenact

/-- An object that is made from its parts: a builtin collection, a builtin exception, or an instance of a
library type. -/
inductive ObjectKind.IsComposite : ObjectKind → Prop
  | sequence (shape : Shape) (contained : List ObjectId) : IsComposite (sequence shape contained)
  | map (mapping : List (ObjectId × ObjectId)) : IsComposite (map mapping)
  | exception (args : List ObjectId) : IsComposite (exception args)
  | library (format : String) (args : List ObjectId) (imports : ImportSet) :
    IsComposite (library format args imports)

/-- An object that a call makes: an instance of a project class, or a generator that was resumed. -/
inductive ObjectKind.IsMadeByCall : ObjectKind → Prop
  | user (cls : ClassId) (initCall : Option CallId) (uses : List Use) :
    IsMadeByCall (user cls initCall uses)
  | generator (activation : Activation) (calls : List CallId) :
    IsMadeByCall (generator (some activation) calls)

/-- The second object is the first one, or a part of it, or a part of that, and so on. -/
def Recording.Contains (r : Recording) : ObjectId → ObjectId → Prop :=
  Relation.ReflTransGen fun whole part => r.IsPartOf part whole

namespace Recording

variable {r : Recording} {id : ObjectId} {o : Object}

/-- Code can make an object from its parts when it can make each of them. -/
theorem IsBuilt.isConstructible_iff (h : r.IsBuilt) (found : r.object? id = some o)
    (composite : o.kind.IsComposite) :
    r.isConstructible id = true ↔ ∀ part ∈ o.parts, r.isConstructible part = true := by
  rw [h.isConstructible_eq, isConstructibleBy, found, Option.map_some, Object.parts]
  generalize o.kind = kind at composite
  cases composite <;> exact List.all_eq_true

end Recording

namespace Setup

variable {p : Project} {r : Recording} {names : Naming} {write : Writer} {id : ObjectId} {o : Object}
  {s : Snippet}

/-! ## Code from the code of parts -/

theorem hasGap_writeList {ids : List ObjectId} (answer : writeList write ids = .ok s) :
    ∃ codes, ids.mapM write = .ok codes ∧ s.hasGap = codes.any Snippet.hasGap := by
  obtain ⟨codes, written, whole⟩ := bind_eq_ok.1 answer
  rw [← pure_eq_ok.1 whole]
  exact ⟨codes, written, Snippet.hasGap_join⟩

theorem hasGap_writeEntries {mapping : List (ObjectId × ObjectId)} {entries : List Snippet}
    (answer : mapping.mapM (writeEntry write) = .ok entries) :
    ∃ codes, (ObjectKind.map mapping).parts.mapM write = .ok codes ∧
      entries.any Snippet.hasGap = codes.any Snippet.hasGap := by
  simp only [mapM_eq_ok] at answer ⊢
  induction answer with
  | nil => exact ⟨[], .nil, rfl⟩
  | cons head _ ih =>
    obtain ⟨key, keyCode, rest⟩ := bind_eq_ok.1 head
    obtain ⟨value, valueCode, entry⟩ := bind_eq_ok.1 rest
    obtain ⟨codes, others, same⟩ := ih
    refine ⟨key :: value :: codes, .cons keyCode (.cons valueCode others), ?_⟩
    rw [← pure_eq_ok.1 entry, List.any_cons, same, List.any_cons, List.any_cons, ← Bool.or_assoc]
    rfl

/-- An object made from parts is written from the code of its parts, and has the gaps of these. -/
theorem exists_codes_of_composite (found : r.object? id = some o) (composite : o.kind.IsComposite)
    (answer : writeDefinition p r names write id = .ok s) :
    ∃ codes, o.parts.mapM write = .ok codes ∧ s.hasGap = codes.any Snippet.hasGap := by
  unfold writeDefinition at answer
  rw [Recording.object_eq_ok.2 found] at answer
  obtain ⟨kind, same⟩ : ∃ kind, o.kind = kind := ⟨_, rfl⟩
  rw [same] at composite
  simp only [bind, Except.bind, same] at answer
  rw [Object.parts, same]
  cases composite with
  | sequence shape contained =>
    obtain ⟨list, written, whole⟩ := bind_eq_ok.1 answer
    obtain ⟨codes, parts, gaps⟩ := hasGap_writeList written
    rw [← pure_eq_ok.1 whole]
    exact ⟨codes, parts, gaps⟩
  | map mapping =>
    obtain ⟨entries, written, whole⟩ := bind_eq_ok.1 answer
    rw [← pure_eq_ok.1 whole]
    obtain ⟨codes, parts, gaps⟩ := hasGap_writeEntries written
    exact ⟨codes, parts, Snippet.hasGap_join.trans gaps⟩
  | exception args | library _ args _ =>
    obtain ⟨list, written, whole⟩ := bind_eq_ok.1 answer
    obtain ⟨codes, parts, gaps⟩ := hasGap_writeList written
    rw [← pure_eq_ok.1 whole]
    exact ⟨codes, parts, gaps⟩

/-- It is written whenever its parts are. -/
theorem writeDefinition_answers (found : r.object? id = some o) (composite : o.kind.IsComposite)
    (parts : ∀ part ∈ o.parts, ∃ code, write part = .ok code) :
    ∃ s, writeDefinition p r names write id = .ok s := by
  have list {ids : List ObjectId} (each : ∀ part ∈ ids, ∃ code, write part = .ok code) :
      ∃ s, writeList write ids = .ok s :=
    bind_answers (mapM_answers each) fun _ _ => ⟨_, rfl⟩
  unfold writeDefinition
  rw [Recording.object_eq_ok.2 found]
  obtain ⟨kind, same⟩ : ∃ kind, o.kind = kind := ⟨_, rfl⟩
  rw [same] at composite
  rw [Object.parts, same] at parts
  simp only [bind, Except.bind, same]
  cases composite with
  | sequence | exception | library => exact bind_answers (list parts) fun _ _ => ⟨_, rfl⟩
  | map mapping =>
    refine bind_answers (mapM_answers fun entry mem => ?_) fun _ _ => ⟨_, rfl⟩
    have inside {part : ObjectId} (mem' : part ∈ [entry.1, entry.2]) :=
      parts part (List.mem_flatMap.2 ⟨entry, mem, mem'⟩)
    exact bind_answers (inside List.mem_cons_self) fun _ _ =>
      bind_answers (inside (List.mem_cons_of_mem _ List.mem_cons_self)) fun _ _ => ⟨_, rfl⟩

/-- An object made from parts has a gap in its code exactly when a part has. -/
theorem hasGap_iff_of_composite (found : r.object? id = some o) (composite : o.kind.IsComposite)
    (answer : construct p r .empty id = .ok s) :
    s.hasGap = true ↔ ∃ part ∈ o.parts, ∃ code, construct p r .empty part = .ok code ∧
      code.hasGap = true := by
  obtain ⟨codes, written, gaps⟩ :=
    exists_codes_of_composite found composite ((construct_eq_ok_iff rfl).1 answer)
  rw [gaps, List.any_eq_true]
  constructor
  · rintro ⟨code, mem, gap⟩
    obtain ⟨part, inside, partCode⟩ := mem_of_mapM_eq_ok written mem
    exact ⟨part, inside, code, partCode, gap⟩
  · rintro ⟨part, inside, code, partCode, gap⟩
    obtain ⟨code', mem, partCode'⟩ := exists_of_mapM_eq_ok written inside
    cases partCode.symm.trans partCode'
    exact ⟨code, mem, gap⟩

/-! ## Gaps of calls -/

/-- Inside the object there is one that a call makes, and the code of that one has a gap. -/
def HasCallGap (p : Project) (r : Recording) (id : ObjectId) : Prop :=
  ∃ x o s, r.Contains id x ∧ r.object? x = some o ∧ o.kind.IsMadeByCall ∧
    construct p r .empty x = .ok s ∧ s.hasGap = true

theorem hasCallGap_iff_of_composite (found : r.object? id = some o)
    (composite : o.kind.IsComposite) :
    HasCallGap p r id ↔ ∃ part ∈ o.parts, HasCallGap p r part := by
  constructor
  · rintro ⟨x, o', s, inside, found', made, gap⟩
    rcases inside.cases_head with rfl | ⟨part, ⟨whole, found'', mem⟩, inside⟩
    · cases found.symm.trans found'
      generalize o.kind = kind at composite made
      cases composite <;> cases made
    · cases found.symm.trans found''
      exact ⟨part, mem, x, o', s, inside, found', made, gap⟩
  · rintro ⟨part, mem, x, o', s, inside, rest⟩
    exact ⟨x, o', s, .head ⟨o, found, mem⟩ inside, rest⟩

/-- Only composite objects have parts. -/
theorem parts_eq_nil_of_not_composite (single : ¬o.kind.IsComposite) : o.parts = [] := by
  rw [Object.parts]
  generalize o.kind = kind at single
  cases kind with
  | immutable | unknown | user | generator => rfl
  | sequence | map | exception | library => exact absurd (by constructor) single

/-- An object without parts contains only itself. -/
theorem hasCallGap_iff_of_single (found : r.object? id = some o) (single : ¬o.kind.IsComposite)
    (answer : construct p r .empty id = .ok s) :
    HasCallGap p r id ↔ o.kind.IsMadeByCall ∧ s.hasGap = true := by
  constructor
  · rintro ⟨x, o', s', inside, found', made, answer', gap⟩
    rcases inside.cases_head with rfl | ⟨part, ⟨whole, found'', mem⟩, -⟩
    · cases found.symm.trans found'
      cases answer.symm.trans answer'
      exact ⟨made, gap⟩
    · cases found.symm.trans found''
      rw [parts_eq_nil_of_not_composite single] at mem
      cases mem
  · rintro ⟨made, gap⟩
    exact ⟨id, o, s, .refl, found, made, answer, gap⟩

/-! ## All gaps -/

theorem hasGap_iff_of_single (built : r.IsBuilt) (found : r.object? id = some o)
    (single : ¬o.kind.IsComposite) (answer : construct p r .empty id = .ok s) :
    s.hasGap = true ↔ r.isConstructible id = false ∨ HasCallGap p r id := by
  have written := (construct_eq_ok_iff rfl).1 answer
  unfold define writeDefinition at written
  rw [Recording.object_eq_ok.2 found] at written
  rw [hasCallGap_iff_of_single found single answer, built.isConstructible_eq,
    Recording.isConstructibleBy, found, Option.map_some]
  obtain ⟨kind, same⟩ : ∃ kind, o.kind = kind := ⟨_, rfl⟩
  simp only [bind, Except.bind, same] at written single ⊢
  cases kind with
  | immutable =>
    cases written
    refine iff_of_false nofun ?_
    rintro (cannot | ⟨made, -⟩)
    · exact Bool.noConfusion (show true = false from cannot)
    · cases made
  | unknown =>
    cases written
    exact iff_of_true rfl (.inl rfl)
  | user =>
    exact ⟨fun gap => .inr ⟨.user .., gap⟩, fun reason => (reason.resolve_left nofun).2⟩
  | generator activation =>
    cases activation with
    | none =>
      cases written
      exact iff_of_true rfl (.inl rfl)
    | some activation =>
      exact ⟨fun gap => .inr ⟨.generator .., gap⟩, fun reason => (reason.resolve_left nofun).2⟩
  | sequence | map | exception | library => exact absurd (by constructor) single

/-- Code has a gap for what code cannot make, and for calls that have one. -/
theorem hasGap_iff (built : r.IsBuilt) (answer : construct p r .empty id = .ok s) :
    s.hasGap = true ↔ r.isConstructible id = false ∨ HasCallGap p r id := by
  induction id using built.wellFounded_isPartOf.induction generalizing s with
  | _ id ih =>
    have written := (construct_eq_ok_iff rfl).1 answer
    obtain ⟨o, found, -⟩ := bind_eq_ok.1 written
    rw [Recording.object_eq_ok] at found
    by_cases composite : o.kind.IsComposite
    · have can : r.isConstructible id = false ↔
          ∃ part ∈ o.parts, r.isConstructible part = false := by
        rw [← Bool.not_eq_true, built.isConstructible_iff found composite]
        simp
      obtain ⟨codes, parts, -⟩ := exists_codes_of_composite found composite written
      rw [hasGap_iff_of_composite found composite answer, can,
        hasCallGap_iff_of_composite found composite, ← exists_or]
      refine exists_congr fun part => ?_
      rw [← and_or_left]
      refine and_congr_right fun mem => ?_
      obtain ⟨code, -, partCode⟩ := exists_of_mapM_eq_ok parts mem
      rw [← ih part ⟨o, found, mem⟩ partCode]
      exact ⟨fun ⟨code', answer', gap⟩ => Except.ok.inj (partCode.symm.trans answer') ▸ gap,
        fun gap => ⟨code, partCode, gap⟩⟩
    · exact hasGap_iff_of_single built found composite answer

/-- Where nothing inside is made by a call, code is written. -/
theorem construct_answers (built : r.IsBuilt) (there : r.HasObject id)
    (none : ∀ x o, r.Contains id x → r.object? x = some o → ¬o.kind.IsMadeByCall) :
    ∃ s, construct p r .empty id = .ok s := by
  induction id using built.wellFounded_isPartOf.induction with
  | _ id ih =>
    obtain ⟨o, found⟩ := there
    suffices ∃ s, define p r .empty id = .ok s from this.imp fun _ => (construct_eq_ok_iff rfl).2
    by_cases composite : o.kind.IsComposite
    · refine writeDefinition_answers found composite fun part mem => ?_
      have inside : r.IsPartOf part id := ⟨o, found, mem⟩
      exact ih part inside (built.parts found part mem) fun x o within =>
        none x o (.head inside within)
    · have single := none id o .refl found
      unfold define writeDefinition
      rw [Recording.object_eq_ok.2 found]
      obtain ⟨kind, same⟩ : ∃ kind, o.kind = kind := ⟨_, rfl⟩
      simp only [bind, Except.bind, same] at composite single ⊢
      cases kind with
      | immutable | unknown => exact ⟨_, rfl⟩
      | user => exact absurd (.user ..) single
      | generator activation =>
        cases activation with
        | none => exact ⟨_, rfl⟩
        | some activation => exact absurd (.generator ..) single
      | sequence | map | exception | library => exact absurd (by constructor) composite

/-! ## Any recording that operations lead to -/

/-- The gaps in the code of an object. -/
structure ShowsGaps (p : Project) (r : Recording) (id : ObjectId) : Prop where
  /-- What code cannot make is a gap. -/
  missing : ∀ s, construct p r .empty id = .ok s → r.isConstructible id = false → s.hasGap = true
  /-- Where no instance and no generator is inside, the object is written, and nothing else is a gap. -/
  only : (∀ x o, r.Contains id x → r.object? x = some o → ¬o.kind.IsMadeByCall) →
    ∃ s, construct p r .empty id = .ok s ∧ (s.hasGap = true → r.isConstructible id = false)
  /-- In general the calls that make instances and generators may have gaps, too. -/
  sources : ∀ s, construct p r .empty id = .ok s →
    (s.hasGap = true ↔ r.isConstructible id = false ∨ HasCallGap p r id)

/-- In every recording that operations lead to, code for an object shows as gaps what code cannot make,
and nothing else besides gaps of calls. -/
theorem showsGaps {r : Recording} (reached : r.IsReachable) (p : Project) {id : ObjectId}
    (there : r.HasObject id) : ShowsGaps p r id where
  missing _ answer cannot := (hasGap_iff reached.isBuilt answer).2 (.inl cannot)
  only none := by
    obtain ⟨s, answer⟩ := construct_answers (p := p) reached.isBuilt there none
    refine ⟨s, answer, fun gap => ((hasGap_iff reached.isBuilt answer).1 gap).resolve_right ?_⟩
    rintro ⟨x, o, -, inside, found, made, -⟩
    exact none x o inside found made
  sources _ answer := hasGap_iff reached.isBuilt answer

/-! A socket in a list, and an instance whose constructor was given that list. -/

namespace Connected

def socket : Value := .other ⟨.observed 1, "socket", "socket", []⟩

def list : Value := .sequence ⟨.observed 2, "list", builtinModule, []⟩ .list [socket, socket]

def box : Value := .object ⟨.observed 3, "Box", "m", []⟩

def project : Project :=
  { Project.empty "/p" with classes := #[⟨"Box", "m", [⟨"__init__", ["self", "x"], false⟩], [], []⟩] }

def recording : Recording :=
  ((Session.start project ⟨0⟩).performAll
    [.callMethod ⟨⟨0⟩, 0⟩ box [("x", list)] none]).recording

end Connected

theorem showsGaps_connected :
    Connected.recording.IsReachable ∧ Connected.recording.HasObject ⟨2⟩ ∧
      ShowsGaps Connected.project Connected.recording ⟨2⟩ := by
  have reached : Connected.recording.IsReachable := Recording.isReachable_performAll ..
  have there : Connected.recording.HasObject ⟨2⟩ := by
    rw [Recording.hasObject_iff]
    decide +kernel
  exact ⟨reached, there, showsGaps reached Connected.project there⟩

/-- Code can make the instance, but its constructor call has the gaps of the list. -/
example : (Connected.recording.isConstructible ⟨0⟩, Connected.recording.isConstructible ⟨2⟩,
    ((construct Connected.project Connected.recording .empty ⟨0⟩).toOption.map Snippet.code)) =
      (true, false, some "Box([<TODO: socket.socket>, <TODO: socket.socket>])") := by
  decide +kernel

end Setup

end Reenact
