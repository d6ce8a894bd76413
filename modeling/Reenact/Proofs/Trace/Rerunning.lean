import Mathlib.Logic.Function.Basic
import Reenact.Proofs.Trace.Performing
import Reenact.Trace.Workspace

/-!
# Running points of entry again

Points of entry of one project are run in any order and on any hosts, which may change in between. A
point of entry is run to its end, fails on the way, or is refused by a host that is traced already;
in each case what its earlier run captured is taken back first. Whatever happens to a workspace comes
down to two things: a latest run is taken back, and a point of entry that has none gets one
(`Tally.Step`).

The identifiers of runs come from outside. Of their supply it is assumed that it never repeats, so
that a new run is told apart from every earlier one; nothing is assumed of their order.

**The law** (`linksLatestRuns_performAll`): at all times the links of the project are those of the
latest runs of the points of entry that have one, each of them once. No link is left of a run that
is not the latest of its point of entry any more.
-/

namespace Reenact

/-- What a capture leaves is accounted for, from an empty recording with its number on. -/
theorem Capture.accounts_of_run {c : Capture} {project : Project} {host : Host} {id : RunId}
    {result : Project × Host × Report} (h : c.run project host id = .ok result) :
    (Session.start project id).Accounts ⟨result.1, result.2.2.recording⟩ := by
  unfold Capture.run at h
  obtain ⟨installed, ready, h⟩ := bind_eq_ok.1 h
  have watched : (installed.run (c.tracerFor project installed id)).2.observer.session =
      (c.watch project host id).session host.events := by
    unfold Host.install at ready
    split at ready <;> cases ready
    rw [Host.tracer_run]
    rfl
  rw [← pure_eq_ok.1 h]
  show (Session.start project id).Accounts
    ((installed.run (c.tracerFor project installed id)).2.observer.session.finish c.isExhausted)
  rw [watched]
  exact ((c.watch project host id).leadsTo_after host.events).accounts.trans
    (Session.finish_accounts ..)

/-! ## Links and latest runs -/

/-- A project, the latest run of each point of entry, and how many identifiers were handed out. -/
structure Tally where
  project : Project
  latest : Nat → Option Recording
  next : Nat

namespace Tally

variable {ids : Nat → RunId} {t u v : Tally}

/-- What can happen to the links. -/
inductive Step (ids : Nat → RunId) (t : Tally) : Tally → Prop
  /-- A latest run is taken back. -/
  | forget {i : Nat} {r : Recording} (last : t.latest i = some r) :
      Step ids t ⟨t.project.forget r.id, Function.update t.latest i none, t.next⟩
  /-- A point of entry that has no run gets one. -/
  | run {i : Nat} {p : Project} {r : Recording} (free : t.latest i = none)
      (accounts : (Session.start t.project (ids t.next)).Accounts ⟨p, r⟩) :
      Step ids t ⟨p, Function.update t.latest i (some r), t.next + 1⟩

/-- The links are those of the latest runs. These are told apart by identifiers that were handed out
before. -/
structure Balances (ids : Nat → RunId) (t : Tally) : Prop where
  distinct : ∀ {i j r q}, t.latest i = some r → t.latest j = some q → r.id = q.id → i = j
  handedOut : ∀ {i r}, t.latest i = some r → ∃ n < t.next, r.id = ids n
  mirrors : ∀ {i r}, t.latest i = some r → t.project.Mirrors r
  covered : ∀ {place l}, l ∈ t.project.linksAt place → ∃ i r, t.latest i = some r ∧ l.run = r.id

theorem Balances.forget (h : t.Balances ids) {i : Nat} {r : Recording}
    (last : t.latest i = some r) :
    Balances ids ⟨t.project.forget r.id, Function.update t.latest i none, t.next⟩ := by
  have kept {j : Nat} {q : Recording} (found : Function.update t.latest i none j = some q) :
      j ≠ i ∧ t.latest j = some q := by
    rw [Function.update_apply] at found
    split at found
    · cases found
    · rename_i other
      exact ⟨other, found⟩
  exact
    { distinct := fun first second same => h.distinct (kept first).2 (kept second).2 same
      handedOut := fun found => h.handedOut (kept found).2
      mirrors := fun found => by
        obtain ⟨other, found⟩ := kept found
        exact (h.mirrors found).of_forget (Project.forget_forget ..)
          fun same => other (h.distinct found last same)
      covered := by
        intro place l mem
        rw [Project.linksAt_forget, List.mem_filter, bne_iff_ne] at mem
        obtain ⟨j, q, found, run⟩ := h.covered mem.1
        refine ⟨j, q, ?_, run⟩
        show Function.update t.latest i none j = some q
        rw [Function.update_of_ne, found]
        rintro rfl
        rw [last] at found
        cases found
        exact mem.2 run }

theorem Balances.run (distinct : Function.Injective ids) (h : t.Balances ids) {i : Nat} {p : Project}
    {r : Recording} (free : t.latest i = none)
    (accounts : (Session.start t.project (ids t.next)).Accounts ⟨p, r⟩) :
    Balances ids ⟨p, Function.update t.latest i (some r), t.next + 1⟩ := by
  have run : r.id = ids t.next := accounts.run
  have others : p.forget (ids t.next) = t.project.forget (ids t.next) := accounts.others
  -- no latest run has the identifier yet
  have differ {j : Nat} {q : Recording} (found : t.latest j = some q) : q.id ≠ ids t.next := by
    intro same
    obtain ⟨n, lt, id⟩ := h.handedOut found
    exact Nat.ne_of_lt lt (distinct (id.symm.trans same))
  have unlinked (place : Place) : t.project.targets (ids t.next) place = [] := by
    refine List.eq_nil_iff_forall_not_mem.2 fun target mem => ?_
    obtain ⟨j, q, found, same⟩ := h.covered (Project.mem_targets.1 mem)
    exact differ found same.symm
  have either {j : Nat} {q : Recording} (found : Function.update t.latest i (some r) j = some q) :
      (j = i ∧ q = r) ∨ t.latest j = some q := by
    rw [Function.update_apply] at found
    split at found
    · rename_i same
      cases found
      exact .inl ⟨same, rfl⟩
    · exact .inr found
  exact
    { distinct := by
        intro j k q q' first second same
        rcases either first with ⟨rfl, rfl⟩ | old
        · rcases either second with ⟨rfl, rfl⟩ | old
          · rfl
          · exact absurd (same.symm.trans run) (differ old)
        · rcases either second with ⟨rfl, rfl⟩ | old'
          · exact absurd (same.trans run) (differ old)
          · exact h.distinct old old' same
      handedOut := by
        intro j q found
        rcases either found with ⟨rfl, rfl⟩ | found
        · exact ⟨t.next, Nat.lt_succ_self _, run⟩
        · obtain ⟨n, lt, id⟩ := h.handedOut found
          exact ⟨n, Nat.lt_succ_of_lt lt, id⟩
      mirrors := by
        intro j q found
        rcases either found with ⟨rfl, rfl⟩ | found
        · exact accounts.mirrors (Session.mirrors_empty unlinked)
        · exact (h.mirrors found).of_forget others (differ found)
      covered := by
        intro place l mem
        by_cases own : l.run = ids t.next
        · exact ⟨i, r, Function.update_self .., own.trans run.symm⟩
        · have kept : l ∈ (p.forget (ids t.next)).linksAt place := by
            rw [Project.linksAt_forget, List.mem_filter]
            exact ⟨mem, bne_iff_ne.2 own⟩
          rw [others, Project.linksAt_forget, List.mem_filter] at kept
          obtain ⟨j, q, found, same⟩ := h.covered kept.1
          refine ⟨j, q, ?_, same⟩
          show Function.update t.latest i (some r) j = some q
          rw [Function.update_of_ne, found]
          rintro rfl
          rw [free] at found
          cases found }

theorem Balances.step (distinct : Function.Injective ids) (h : t.Balances ids)
    (step : Step ids t u) : u.Balances ids := by
  cases step with
  | forget last => exact h.forget last
  | run free accounts => exact h.run distinct free accounts

/-- Every link is there once. -/
theorem Balances.nodup_linksAt (h : t.Balances ids) (place : Place) :
    (t.project.linksAt place).Nodup := by
  refine List.nodup_iff_count_le_one.2 fun l => ?_
  by_cases mem : l ∈ t.project.linksAt place
  · obtain ⟨i, r, found, same⟩ := h.covered mem
    have once := (h.mirrors found place).1.of_map
    rw [← List.count_filter (p := fun l => l.run == r.id) (beq_iff_eq.2 same)]
    exact List.nodup_iff_count_le_one.1 once l
  · rw [List.count_eq_zero_of_not_mem mem]
    exact Nat.zero_le 1

/-- A link is one of a latest run. -/
theorem Balances.mem_linksAt (h : t.Balances ids) {place : Place} {l : Link} :
    l ∈ t.project.linksAt place ↔
      ∃ i r, t.latest i = some r ∧ l.run = r.id ∧ r.home? l.target = some place := by
  constructor
  · intro mem
    obtain ⟨i, r, found, same⟩ := h.covered mem
    refine ⟨i, r, found, same, ((h.mirrors found place).2 l.target).1 (Project.mem_targets.2 ?_)⟩
    rw [← same]
    exact mem
  · rintro ⟨i, r, found, same, home⟩
    have mem := Project.mem_targets.1 (((h.mirrors found place).2 l.target).2 home)
    rw [← same] at mem
    exact mem

/-- The latest runs of the second tally are those of the first one, or have identifiers that were
handed out later. -/
structure IsLater (ids : Nat → RunId) (t u : Tally) : Prop where
  next : t.next ≤ u.next
  latest : ∀ {i r}, u.latest i = some r →
    (∃ n, t.next ≤ n ∧ r.id = ids n) ∨ t.latest i = some r

theorem IsLater.refl (t : Tally) : IsLater ids t t := ⟨Nat.le_refl _, .inr⟩

theorem IsLater.trans (first : IsLater ids t u) (second : IsLater ids u v) : IsLater ids t v where
  next := Nat.le_trans first.next second.next
  latest found := by
    rcases second.latest found with ⟨n, le, id⟩ | old
    · exact .inl ⟨n, Nat.le_trans first.next le, id⟩
    · exact first.latest old

theorem Step.isLater (step : Step ids t u) : IsLater ids t u := by
  cases step with
  | @forget i r last =>
    refine ⟨Nat.le_refl _, fun {j q} found => .inr ?_⟩
    simp only [Function.update_apply] at found
    split at found
    · cases found
    · exact found
  | @run i p r free accounts =>
    refine ⟨Nat.le_succ _, fun {j q} found => ?_⟩
    simp only [Function.update_apply] at found
    split at found
    · cases found
      exact .inl ⟨t.next, Nat.le_refl _, accounts.run⟩
    · exact .inr found

/-- No link is left of a run that was a latest one and is none any more. -/
theorem Balances.targets_eq_nil (distinct : Function.Injective ids) (h : t.Balances ids)
    (later : IsLater ids t u) (h' : u.Balances ids) {i : Nat} {r : Recording}
    (was : t.latest i = some r) (gone : ∀ q, u.latest i = some q → q.id ≠ r.id) (place : Place) :
    u.project.targets r.id place = [] := by
  refine List.eq_nil_iff_forall_not_mem.2 fun target mem => ?_
  obtain ⟨j, q, found, same⟩ := h'.covered (Project.mem_targets.1 mem)
  have same : r.id = q.id := same
  rcases later.latest found with ⟨n, le, id⟩ | old
  · obtain ⟨m, lt, id'⟩ := h.handedOut was
    have position := distinct (id'.symm.trans (same.trans id))
    exact Nat.ne_of_lt (Nat.lt_of_lt_of_le lt le) position
  · obtain rfl := h.distinct was old same
    exact gone q found same.symm

end Tally

namespace Workspace

/-! ## Steps of a workspace -/

/-- Something that happens to a workspace. -/
inductive Act where
  /-- A point of entry is run on a host. -/
  | inspect (c : Capture) (host entry : Nat)
  /-- The latest run of a point of entry is taken back. -/
  | clear (entry : Nat)
  /-- A host changes. -/
  | modifyHost (host : Nat) (f : Host → Host)

def perform (w : Workspace) : Act → Workspace
  | .inspect c host entry => (w.inspect c host entry).1
  | .clear entry => w.clear entry
  | .modifyHost host f => w.modifyHost host f

def performAll (w : Workspace) (acts : List Act) : Workspace := acts.foldl perform w

/-- The recording of the latest run of a point of entry, if it has one. -/
def latest (w : Workspace) (entry : Nat) : Option Recording :=
  w.entries[entry]?.bind fun e => e.lastRun.map Report.recording

def tally (w : Workspace) : Tally := ⟨w.project, w.latest, w.captured⟩

/-- Any number of steps. -/
abbrev Steps (ids : Nat → RunId) : Tally → Tally → Prop := Relation.ReflTransGen (Tally.Step ids)

variable {ids : Nat → RunId} {w : Workspace} {entry : Nat} {e : EntryPointRuns}

/-- Another point of entry at that place. -/
theorem latest_set (there : w.entries[entry]? = some e) (e' : EntryPointRuns) (project : Project)
    (hosts : Array Host) (ids : Nat → RunId) (captured : Nat) :
    latest ⟨project, hosts, w.entries.setIfInBounds entry e', ids, captured⟩ =
      Function.update w.latest entry (e'.lastRun.map Report.recording) := by
  funext j
  have lt := (Array.getElem?_eq_some_iff.1 there).1
  rw [latest, Array.getElem?_setIfInBounds, Function.update_apply]
  by_cases same : j = entry
  · subst same
    rw [if_pos rfl, if_pos lt, if_pos rfl, Option.bind_some]
  · rw [if_neg (Ne.symm same), if_neg same, latest]

/-- Taking back what a point of entry captured leaves it without a run. -/
theorem clear_steps {latest : Nat → Option Recording} (p : Project) (next : Nat)
    (last : latest entry = e.lastRun.map Report.recording) :
    Steps ids ⟨p, latest, next⟩ ⟨(e.clear p).2, Function.update latest entry none, next⟩ ∧
      (e.clear p).1.lastRun = none := by
  unfold EntryPointRuns.clear
  cases eq : e.lastRun with
  | none =>
    rw [eq] at last
    have same : Function.update latest entry none = latest :=
      Function.update_eq_self_iff.2 last.symm
    rw [same]
    exact ⟨.refl, eq⟩
  | some report =>
    rw [eq] at last
    exact ⟨.single (.forget (t := ⟨p, latest, next⟩) last), rfl⟩

theorem latest_eq (there : w.entries[entry]? = some e) :
    w.latest entry = e.lastRun.map Report.recording := by
  rw [latest, there, Option.bind_some]

/-- Nothing changes the supply of identifiers. -/
theorem ids_perform (w : Workspace) (act : Act) : (w.perform act).ids = w.ids := by
  cases act with
  | modifyHost host f => rfl
  | clear entry =>
    simp only [perform, Workspace.clear]
    split <;> rfl
  | inspect c host entry =>
    simp only [perform, Workspace.inspect]
    split <;> rfl

/-- Whatever happens to a workspace, its links take some steps. -/
theorem perform_steps (w : Workspace) (act : Act) : Steps w.ids w.tally (w.perform act).tally := by
  cases act with
  | modifyHost host f => exact .refl
  | clear entry =>
    simp only [perform, Workspace.clear]
    split
    · rename_i e there
      obtain ⟨cleared, none⟩ := clear_steps w.project w.captured (latest_eq there)
      unfold tally
      rw [latest_set there, none]
      exact cleared
    · exact .refl
  | inspect c host entry =>
    simp only [perform, Workspace.inspect, EntryPointRuns.inspect]
    split
    · rename_i h e _ there
      obtain ⟨cleared, none⟩ := clear_steps w.project w.captured (latest_eq there)
      cases result : c.run (e.clear w.project).2 h (w.ids w.captured) with
      | error fault =>
        dsimp only
        unfold tally
        rw [latest_set there, none]
        exact cleared
      | ok answer =>
        dsimp only
        have ran := cleared.tail (.run (Function.update_self ..) (Capture.accounts_of_run result))
        unfold tally
        rw [latest_set there]
        rw [Function.update_idem] at ran
        exact ran
    · exact .refl

theorem performAll_steps (w : Workspace) (acts : List Act) :
    Steps w.ids w.tally (w.performAll acts).tally := by
  induction acts generalizing w with
  | nil => exact .refl
  | cons act rest ih =>
    have later := ih (w.perform act)
    rw [ids_perform] at later
    exact (perform_steps w act).trans later

theorem ids_performAll (w : Workspace) (acts : List Act) : (w.performAll acts).ids = w.ids :=
  List.foldlRecOn (motive := fun v => v.ids = w.ids) acts perform rfl
    fun v same act _ => (ids_perform v act).trans same

theorem isLater_of_steps {t u : Tally} (steps : Steps ids t u) : Tally.IsLater ids t u := by
  induction steps with
  | refl => exact .refl t
  | tail _ step ih => exact ih.trans step.isLater

theorem balances_of_steps (distinct : Function.Injective ids) {t u : Tally} (steps : Steps ids t u)
    (h : t.Balances ids) : u.Balances ids := by
  induction steps with
  | refl => exact h
  | tail _ step ih => exact ih.step distinct step

theorem balances_start {project : Project} (unlinked : ∀ place, project.linksAt place = [])
    (hosts : List Host) (entries : List EntryPoint) (ids : Nat → RunId) :
    (start project hosts entries ids).tally.Balances ids := by
  have none (i : Nat) : (start project hosts entries ids).latest i = none := by
    simp only [latest, start, List.getElem?_toArray, List.getElem?_map]
    cases entries[i]? <;> rfl
  exact
    { distinct := fun first _ _ => by cases (none _).symm.trans first
      handedOut := fun found => by cases (none _).symm.trans found
      mirrors := fun found => by cases (none _).symm.trans found
      covered := fun {place l} mem => by
        have mem : l ∈ project.linksAt place := mem
        rw [unlinked] at mem
        cases mem }

/-! ## Any number of them -/

/-- The links of the project are those of the latest runs of the points of entry, each of them once,
and these runs are told apart by their identifiers. -/
structure LinksLatestRuns (w : Workspace) : Prop where
  distinct : ∀ {i j r q}, w.latest i = some r → w.latest j = some q → r.id = q.id → i = j
  once : ∀ place, (w.project.linksAt place).Nodup
  exact : ∀ {place l}, l ∈ w.project.linksAt place ↔
    ∃ i r, w.latest i = some r ∧ l.run = r.id ∧ r.home? l.target = some place

/-- No link is left of a run that the points of entry of the first workspace had and those of the
second one no longer have. -/
def ForgetsRuns (v w : Workspace) : Prop :=
  ∀ {i r}, v.latest i = some r → (∀ q, w.latest i = some q → q.id ≠ r.id) →
    ∀ place, w.project.targets r.id place = []

namespace Rerun

/-- A project with one function. -/
def project : Project where
  root := "/p"
  functions := #[⟨"f", "m", [], false, []⟩]
  classes := #[]

def null : Value := .literal ⟨.observed 3, "NoneType", "builtins", []⟩ .none

/-- A host that calls the function. -/
def host : Host where
  events := [.call ⟨⟨⟨10⟩, "f", "/p/m.py", false, false⟩, ⟨[], none, none⟩, none⟩, .ret null none]
  failure := none
  driver := none
  isInstalled := false
  patched := []
  modules := []
  runs := 0

def capture : Capture := ⟨.default, .standard, fun _ => true⟩

/-- One of two points of entry is run twice, and the other one once. Then the host is traced
already, and the second point of entry is refused. -/
def acts : List Act := [
  .inspect capture 0 0,
  .inspect capture 0 1,
  .inspect capture 0 0,
  .modifyHost 0 fun h => { h with isInstalled := true },
  .inspect capture 0 1]

/-- Identifiers with gaps between them. -/
def spaced (n : Nat) : RunId := ⟨3 * n + 7⟩

theorem injective_spaced : Function.Injective spaced := fun m n same => by
  have number : 3 * m + 7 = 3 * n + 7 := congrArg RunId.number same
  omega

def start : Workspace := .start project [host] [⟨"a", "", ""⟩, ⟨"b", "", ""⟩] spaced

theorem unlinked (place : Place) : project.linksAt place = [] := by
  have bare : project = project.unlinked := by decide +kernel
  rw [bare, Project.linksAt_unlinked]

end Rerun

/-- Whatever happens to a workspace of a project without links, the links of the project are always
those of the latest runs, and no link of an earlier run is left. The identifiers of the runs have to
differ. -/
theorem linksLatestRuns_performAll {project : Project}
    (unlinked : ∀ place, project.linksAt place = []) (hosts : List Host)
    (entries : List EntryPoint) {ids : Nat → RunId} (distinct : Function.Injective ids)
    (acts : List Act) :
    ((start project hosts entries ids).performAll acts).LinksLatestRuns ∧
      ∀ earlier later, acts = earlier ++ later →
        ((start project hosts entries ids).performAll earlier).ForgetsRuns
          ((start project hosts entries ids).performAll acts) := by
  have balances (acts : List Act) :
      ((start project hosts entries ids).performAll acts).tally.Balances ids :=
    balances_of_steps distinct (performAll_steps (start project hosts entries ids) acts)
      (balances_start unlinked hosts entries ids)
  refine ⟨⟨(balances acts).distinct, (balances acts).nodup_linksAt,
    (balances acts).mem_linksAt⟩, ?_⟩
  rintro earlier later rfl i r was gone place
  have between := isLater_of_steps
    (performAll_steps ((start project hosts entries ids).performAll earlier) later)
  rw [ids_performAll] at between
  unfold performAll at between was gone ⊢
  rw [← List.foldl_append] at between
  exact (balances earlier).targets_eq_nil distinct between (balances (earlier ++ later)) was gone place

theorem linksLatestRuns_performAll_rerun :
    (∀ place, Rerun.project.linksAt place = []) ∧ Function.Injective Rerun.spaced ∧
      (Rerun.start.performAll Rerun.acts).LinksLatestRuns ∧
      ∀ earlier later, Rerun.acts = earlier ++ later →
        (Rerun.start.performAll earlier).ForgetsRuns (Rerun.start.performAll Rerun.acts) :=
  ⟨Rerun.unlinked, Rerun.injective_spaced,
    linksLatestRuns_performAll Rerun.unlinked [Rerun.host] _ Rerun.injective_spaced Rerun.acts⟩

/-- Of the three runs the third one is left. -/
example : (Rerun.start.performAll Rerun.acts).project.linksAt (.function ⟨0⟩) =
    [⟨Rerun.spaced 2, .call ⟨0⟩⟩] := by
  decide +kernel

end Workspace

end Reenact
