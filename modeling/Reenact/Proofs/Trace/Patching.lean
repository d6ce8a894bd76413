import Mathlib.Data.List.Nodup
import Reenact.Proofs.Trace.Watch

/-!
# Patching code once

Events ask for code to be patched: a frame that is followed asks for its own code, a foreign call
for that of its callables, and a module for all code in it. The same code is asked for again and
again, by one event, by several events of a run, and by later runs on the same host. A run starts
with a log of what the host has patched, and every event adds to this log just what the host is
told to patch, so the log and the host always agree (`Host.patched_run`).

**The law** (`Host.patchesOnce_capture`): whatever captures were taken on a host, it has patched no
code twice. The next capture adds exactly what its events ask for, and leaves the host without a
tracer and with the modules that were loaded before.
-/

namespace Reenact

/-! ## The log -/

namespace PatchLog

variable {l : PatchLog} {code : CodeId}

theorem contains_iff : l.contains code = true ↔ code ∈ l.codes := by
  simp [contains]

/-- What is asked for anew is put at the end of the log. -/
theorem codes_requestAll (l : PatchLog) (codes : List CodeId) :
    (l.requestAll codes).1.codes = l.codes ++ (l.requestAll codes).2 := by
  induction codes generalizing l with
  | nil => simp [requestAll]
  | cons code rest ih =>
    by_cases old : l.contains code = true
    · simp [requestAll, request, old, ih]
    · simp [requestAll, request, old, ih]

/-- The log has what it had, and what was asked for. -/
theorem mem_requestAll {codes : List CodeId} :
    code ∈ (l.requestAll codes).1.codes ↔ code ∈ l.codes ∨ code ∈ codes := by
  induction codes generalizing l with
  | nil => simp [requestAll]
  | cons first rest ih =>
    by_cases old : l.contains first = true
    · have there := contains_iff.1 old
      simp only [requestAll, request, old, if_true, ih, List.mem_cons]
      constructor
      · rintro (inLog | later)
        · exact .inl inLog
        · exact .inr (.inr later)
      · rintro (inLog | rfl | later)
        · exact .inl inLog
        · exact .inl there
        · exact .inr later
    · simp [requestAll, request, old, ih, or_assoc]

/-- No code is in the log twice. -/
theorem nodup_requestAll (h : l.codes.Nodup) (codes : List CodeId) :
    (l.requestAll codes).1.codes.Nodup := by
  induction codes generalizing l with
  | nil => exact h
  | cons code rest ih =>
    by_cases old : l.contains code = true
    · simp only [requestAll, request, old, if_true]
      exact ih h
    · simp only [requestAll, request, old]
      apply ih
      show (l.codes ++ [code]).Nodup
      rw [← List.concat_eq_append]
      exact h.concat fun there => old (contains_iff.2 there)

theorem requestAll_append (l : PatchLog) (first second : List CodeId) :
    (l.requestAll (first ++ second)).1 = ((l.requestAll first).1.requestAll second).1 := by
  induction first generalizing l with
  | nil => rfl
  | cons code rest ih => exact ih _

/-- Code without repetitions is a log by itself. -/
theorem codes_ofCodes {codes : List CodeId} (h : codes.Nodup) : (ofCodes codes).codes = codes := by
  have general (codes : List CodeId) : ∀ l : PatchLog, (l.codes ++ codes).Nodup →
      (l.requestAll codes).1.codes = l.codes ++ codes := by
    induction codes with
    | nil => simp [requestAll]
    | cons code rest ih =>
      intro l nodup
      have new : ¬ l.contains code = true := by
        intro old
        exact (List.disjoint_of_nodup_append nodup) (contains_iff.1 old) List.mem_cons_self
      simp only [requestAll, request, new]
      have moved : l.codes ++ code :: rest = (l.codes ++ [code]) ++ rest := by simp
      rw [moved] at nodup ⊢
      exact ih ⟨l.codes ++ [code]⟩ nodup
  exact general codes empty h

end PatchLog

/-! ## What events ask for -/

namespace Tracer

variable {σ : Type} [Observer σ] {t : Tracer σ} {e : Event} {code : CodeId}

/-- An event asks for code, when the tracer takes it in. -/
inductive Asks (t : Tracer σ) : Event → CodeId → Prop
  /-- A frame that is followed asks for its own code. -/
  | frame {f : Frame} (followed : (t.step (.call f)).2.descend = true) :
      t.Asks (.call f) f.code.id
  | foreign {call : Foreign} {code : CodeId} (mem : code ∈ call.callables) :
      t.Asks (.foreignCall call) code
  | module {module : String} {codes : List CodeId} {code : CodeId} (mem : code ∈ codes) :
      t.Asks (.moduleLoaded module codes) code

/-- The code that an event asks for. -/
def wants (t : Tracer σ) : Event → List CodeId
  | .call f => if (t.step (.call f)).2.descend then [f.code.id] else []
  | .foreignCall call => call.callables
  | .moduleLoaded _ codes => codes
  | _ => []

theorem mem_wants : code ∈ t.wants e ↔ t.Asks e code := by
  constructor
  · intro mem
    cases e with
    | call f =>
      simp only [wants] at mem
      split at mem
      · rename_i followed
        rw [List.mem_singleton.1 mem]
        exact .frame followed
      · cases mem
    | foreignCall call => exact .foreign mem
    | moduleLoaded module codes => exact .module mem
    | _ => cases mem
  · intro asks
    cases asks with
    | frame followed => simp [wants, followed]
    | foreign mem => exact mem
    | module mem => exact mem

/-- The code that a stream asks for, in order. -/
def wanted (t : Tracer σ) : List Event → List CodeId
  | [] => []
  | e :: rest => t.wants e ++ (t.step e).1.wanted rest

theorem mem_wanted {events : List Event} : code ∈ t.wanted events ↔
    ∃ before e after, events = before ++ e :: after ∧ (t.run before).Asks e code := by
  induction events generalizing t with
  | nil => simp [wanted]
  | cons first rest ih =>
    rw [wanted, List.mem_append, mem_wants, ih]
    constructor
    · rintro (asks | ⟨before, e, after, rfl, asks⟩)
      · exact ⟨[], first, rest, rfl, asks⟩
      · exact ⟨first :: before, e, after, rfl, asks⟩
    · rintro ⟨before, e, after, split, asks⟩
      cases before with
      | nil =>
        cases split
        exact .inl asks
      | cons _ before =>
        cases split
        exact .inr ⟨before, e, after, rfl, asks⟩

theorem patches_report (f : Frame) : (t.report f).1.patches = t.patches := by
  unfold report
  dsimp only

theorem patches_onReturn (value : Value) (handled : Option TracebackId) :
    (t.onReturn value handled).patches = t.patches := by
  unfold onReturn
  split
  · rfl
  · dsimp only
    split <;> rfl

theorem patches_onRaise (raised : Raised) (traceback : TracebackId) :
    (t.onRaise raised traceback).patches = t.patches := by
  unfold onRaise
  by_cases ignored : t.settings.ignoresException raised.typeName = true
  · rw [if_pos ignored]
  · rw [if_neg ignored]
    split
    · rfl
    · split
      · rfl
      · split <;> rfl

/-- Every event asks the log for what it wants, and the host for what is new in it. -/
theorem step_patches (t : Tracer σ) (e : Event) :
    (t.step e).1.patches = (t.patches.requestAll (t.wants e)).1 ∧
      (t.step e).2.patch = (t.patches.requestAll (t.wants e)).2 := by
  cases e with
  | call f =>
    by_cases passed : t.isIgnored f = true
    · simp [wants, step, onCall, passed, Directive.skip, PatchLog.requestAll, enter]
    · cases answer : (t.report f).2 with
      | false =>
        simp [wants, step, onCall, passed, answer, Directive.skip, PatchLog.requestAll, enter,
          patches_report]
      | true => simp [wants, step, onCall, passed, answer, request, enter, patches_report]
  | ret value handled => exact ⟨patches_onReturn value handled, rfl⟩
  | raise raised traceback => exact ⟨patches_onRaise raised traceback, rfl⟩
  | foreignReturn value =>
    simp only [step]
    split <;> exact ⟨rfl, rfl⟩
  | foreignCall call => exact ⟨rfl, rfl⟩
  | globalRead module name value => exact ⟨rfl, rfl⟩
  | globalRebind module name value => exact ⟨rfl, rfl⟩
  | attributeRebind target name value => exact ⟨rfl, rfl⟩
  | moduleLoaded module codes => exact ⟨rfl, rfl⟩

/-- A stream asks the log for all that its events want. -/
theorem patches_run (t : Tracer σ) (events : List Event) :
    (t.run events).patches = (t.patches.requestAll (t.wanted events)).1 := by
  induction events generalizing t with
  | nil => rfl
  | cons e rest ih =>
    rw [wanted, PatchLog.requestAll_append, ← (t.step_patches e).1]
    exact ih _

end Tracer

/-! ## Hosts -/

namespace Host

variable {σ : Type} [Observer σ] {h : Host} {t : Tracer σ}

/-- The host patches what is new in the log of the tracer. -/
theorem patched_replay (agree : t.patches.codes = h.patched) (e : Event) :
    (replay (h, t) e).2.patches.codes = (replay (h, t) e).1.patched := by
  obtain ⟨log, new⟩ := t.step_patches e
  show (t.step e).1.patches.codes = h.patched ++ (t.step e).2.patch
  rw [log, new, PatchLog.codes_requestAll, agree]

/-- What a run of a host leaves as it is, and the modules that it adds. -/
theorem run_eq (h : Host) (t : Tracer σ) : (h.run t).1 =
    { h with
      patched := (h.run t).1.patched
      modules := h.modules ++ h.events.flatMap modulesOf
      runs := h.runs + 1 } := by
  have general (events : List Event) : ∀ (h : Host) (t : Tracer σ),
      (events.foldl replay (h, t)).1 =
        { h with
          patched := (events.foldl replay (h, t)).1.patched
          modules := h.modules ++ events.flatMap modulesOf } := by
    induction events with
    | nil => simp
    | cons e rest ih =>
      intro h t
      rw [List.foldl_cons, ih]
      simp [replay]
  simp only [run]
  rw [general]

/-- The host in the middle of a run, after that many events. -/
def during (h : Host) (t : Tracer σ) (k : Nat) : Host := ((h.events.take k).foldl replay (h, t)).1

/-- At every moment of a run the host has patched what is in the log of the tracer. -/
theorem patched_during (agree : t.patches.codes = h.patched) (k : Nat) :
    (h.during t k).patched = (t.run (h.events.take k)).patches.codes := by
  have general (events : List Event) : ∀ (h : Host) (t : Tracer σ),
      t.patches.codes = h.patched →
      (events.foldl replay (h, t)).1.patched = (t.run events).patches.codes := by
    induction events with
    | nil => exact fun h t agree => agree.symm
    | cons e rest ih => exact fun h t agree => ih _ _ (patched_replay agree e)
  exact general _ h t agree

/-- And so it has after the run. -/
theorem patched_run (agree : t.patches.codes = h.patched) :
    (h.run t).1.patched = (t.run h.events).patches.codes := by
  have last := patched_during agree h.events.length
  rw [during, List.take_length] at last
  exact last

end Host

/-! ## Captures in a row -/

/-- The events ask for code on the way. -/
def Watch.AsksFor (w : Watch) (events : List Event) (code : CodeId) : Prop :=
  ∃ before e after, events = before ++ e :: after ∧ (w.after before).Asks e code

/-- A capture to be taken on a host. -/
structure Job where
  capture : Capture
  project : Project
  id : RunId

namespace Job

def take (j : Job) (h : Host) : Except Fault (Project × Host × Report) :=
  j.capture.run j.project h j.id

/-- The watch of the capture. -/
def watch (j : Job) (h : Host) : Watch := j.capture.watch j.project h j.id

end Job

namespace Host

/-- A host that replays events. Nothing ran on it yet, and some modules are loaded. -/
def fresh (events : List Event) (failure : Option Failure) (driver : Option CodeId)
    (modules : List String) : Host where
  events := events
  failure := failure
  driver := driver
  isInstalled := false
  patched := []
  modules := modules
  runs := 0

/-- The host after captures, one after the other. -/
def takeAll (h : Host) (jobs : List Job) : Except Fault Host :=
  jobs.foldlM (fun h j => do return (← j.take h).2.1) h

/-- A capture leads from one host to the other, and patches all that it asks for, but nothing
twice. -/
structure PatchesOnce (j : Job) (before after : Host) : Prop where
  /-- No code is patched twice, at any moment of the run. -/
  nodup_during : ∀ k, (before.during (j.watch before).start k).patched.Nodup
  nodup : after.patched.Nodup
  /-- What was patched stays, in order. -/
  kept : before.patched <+: after.patched
  /-- What the events ask for is patched, and nothing else. -/
  exact : ∀ code, code ∈ after.patched ↔
    code ∈ before.patched ∨ (j.watch before).AsksFor before.events code
  untraced : after.isInstalled = false
  modules : ∀ module, module ∈ after.modules ↔ module ∈ before.modules
  /-- The rest of the host stays as it is. -/
  rest : after = { before with
    patched := after.patched, modules := after.modules, runs := before.runs + 1 }

variable {h : Host}

/-- A capture on a host that is not traced runs it to its end, forgets the modules that were loaded
on the way, and uninstalls the tracer. -/
theorem take_eq (j : Job) (free : h.isInstalled = false)
    (agree : (j.watch h).start.patches.codes = h.patched) :
    ∃ p, ∃ ran : Host, ∃ report,
      j.take h = .ok (p, (ran.unloadExcept h.modules).uninstall, report) ∧
      ran.patched = ((j.watch h).start.run h.events).patches.codes ∧
      ran = { h with
        isInstalled := true
        patched := ran.patched
        modules := h.modules ++ h.events.flatMap modulesOf
        runs := h.runs + 1 } := by
  let installed : Host := { h with isInstalled := true }
  obtain ⟨p, report, taken⟩ : ∃ p report, j.take h = .ok (p,
      ((installed.run (j.watch h).start).1.unloadExcept h.modules).uninstall, report) := by
    unfold Job.take Capture.run install
    rw [free]
    exact ⟨_, _, rfl⟩
  exact ⟨p, _, report, taken, patched_run agree, run_eq installed _⟩

theorem take_patchesOnce (j : Job) (free : h.isInstalled = false) (nodup : h.patched.Nodup) :
    ∃ p after report, j.take h = .ok (p, after, report) ∧ PatchesOnce j h after := by
  have agree : (j.watch h).start.patches.codes = h.patched := PatchLog.codes_ofCodes nodup
  have log (events : List Event) : ((j.watch h).start.run events).patches.codes.Nodup := by
    rw [Tracer.patches_run]
    exact PatchLog.nodup_requestAll (agree ▸ nodup) _
  obtain ⟨p, ran, report, taken, patched, same⟩ := take_eq j free agree
  have after : ((ran.unloadExcept h.modules).uninstall).patched = ran.patched := rfl
  refine ⟨p, _, report, taken, ?_⟩
  exact
    { nodup_during := fun k => by
        rw [patched_during agree]
        exact log _
      nodup := by
        rw [after, patched]
        exact log _
      kept := by
        rw [after, patched, Tracer.patches_run, PatchLog.codes_requestAll, agree]
        exact List.prefix_append ..
      exact := fun code => by
        rw [after, patched, Tracer.patches_run, PatchLog.mem_requestAll, agree, Tracer.mem_wanted]
        exact Iff.rfl
      untraced := rfl
      modules := fun module => by
        -- what was loaded on the way is kept only when it was there before
        rw [same]
        simp [unloadExcept, uninstall]
      rest := by
        rw [same]
        simp [unloadExcept, uninstall, free] }

/-- Captures never fail on a host that is not traced, and leave one that is not. -/
theorem takeAll_eq (free : h.isInstalled = false) (nodup : h.patched.Nodup)
    (jobs : List Job) : ∃ after, h.takeAll jobs = .ok after ∧
      after.isInstalled = false ∧ after.patched.Nodup ∧ after.events = h.events ∧
      after.driver = h.driver ∧ after.failure = h.failure ∧
      ∀ module, module ∈ after.modules ↔ module ∈ h.modules := by
  induction jobs generalizing h with
  | nil => exact ⟨h, rfl, free, nodup, rfl, rfl, rfl, fun _ => .rfl⟩
  | cons j rest ih =>
    obtain ⟨p, next, report, taken, once⟩ := take_patchesOnce j free nodup
    obtain ⟨after, all, free, nodup, events, driver, failure, modules⟩ :=
      ih once.untraced once.nodup
    have same := once.rest
    refine ⟨after, ?_, free, nodup, ?_, ?_, ?_, fun module => ?_⟩
    · rw [takeAll, List.foldlM_cons, taken]
      exact all
    · rw [events, same]
    · rw [driver, same]
    · rw [failure, same]
    · rw [modules, once.modules]

/-- On a host that replays events, whatever these are, captures patch code once only: after any
number of them, the next one patches what its events ask for and what was not patched before. -/
theorem patchesOnce_capture (events : List Event) (failure : Option Failure)
    (driver : Option CodeId) (modules : List String) (earlier : List Job) (j : Job) :
    ∃ before p after report,
      (fresh events failure driver modules).takeAll earlier = .ok before ∧
      j.take before = .ok (p, after, report) ∧ PatchesOnce j before after ∧
      before.patched.Nodup ∧ before.events = events ∧ before.driver = driver ∧
      before.failure = failure ∧ ∀ module, module ∈ before.modules ↔ module ∈ modules := by
  obtain ⟨before, all, free, nodup, rest⟩ :=
    takeAll_eq (h := fresh events failure driver modules) rfl List.nodup_nil earlier
  obtain ⟨p, after, report, taken, once⟩ := take_patchesOnce j free nodup
  exact ⟨before, p, after, report, all, taken, once, nodup, rest⟩

end Host

end Reenact
