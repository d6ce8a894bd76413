import Reenact.Proofs.Setup.LaterPlan
import Reenact.Proofs.Trace.Bracket
import Reenact.Proofs.Trace.Continuing

/-!
# What the past decides

What happens after a call has ended ought to be of no concern to its setup. The closure is safe, as long
as no instance of it is constructed and no generator of it activated only later. But among the uses of
objects are the outcomes of calls that were running when the call ended, and these are not known yet.

**The law** (`past_decides_plan_iff`): of two ways in which a program goes on, both have the same setup
for the call exactly when the calls that were captured before the end of the call end with the same
objects of the closure. A caller that returns what it has passed to the call makes a difference
(`not_past_decides_plan`).
-/

namespace Reenact

open Setup

namespace Watch

/-- The last event is a return, and completes the call. -/
structure Completes (w : Watch) (past : List Event) (id : CallId) (c : Call) : Prop where
  returned : ∃ before value handled d, past = before ++ [.ret value handled] ∧
    (w.recording before).call? id = some d ∧ d.completedAt = none
  found : (w.recording past).call? id = some c
  ended : c.completedAt ≠ none

theorem Completes.completedAt {w : Watch} {past : List Event} {id : CallId} {c : Call}
    (h : w.Completes past id c) : c.completedAt = some (w.recording past).lastMoment := by
  obtain ⟨⟨before, value, handled, d, rfl, running, unended⟩, found, ended⟩ := h
  have last : w.after (before ++ [.ret value handled]) =
      ((w.after before).step (.ret value handled)).1 := w.after_append before _
  rw [recording, last] at found ⊢
  exact (Tracer.completedAt_step_ret (w.nests_after before) running unended found).resolve_left ended

/-- The plan of a call that has just ended tells its plan however the program goes on. -/
theorem Completes.exists_laterPlan {w : Watch} {past : List Event} {id : CallId} {c : Call}
    (h : w.Completes past id c) {plan : Plan} {objects : List Object} {effects : List Effect}
    (isPlan : IsPlanOf (w.recording past) [c] objects effects plan) (rest : List Event)
    (stay : MakersStay (w.recording past) (w.recording (past ++ rest)) plan) :
    ∃ plan', planForCall (w.recording (past ++ rest)) id = .ok plan' ∧
      IsLaterPlan (w.recording past) (w.recording (past ++ rest)) objects effects
        (capturedBefore (w.recording past) (w.recording past).lastMoment) plan plan' := by
  have sound := w.sound_recording past
  have goes := w.continues_append past rest
  obtain ⟨plan', objects', effects', planned, isPlan'⟩ :=
    planForCall_sound (w.sound_recording (past ++ rest)) (goes.call?_of_ended h.found h.ended)
  obtain rfl := (sound.calls h.found).1
  have replans : Replans (w.recording past) (w.recording (past ++ rest)) c objects objects' effects
      effects' plan plan' :=
    { past := sound
      later := w.sound_recording (past ++ rest)
      goes := goes
      found := h.found
      ended := h.completedAt
      isPlan := isPlan
      isPlan' := isPlan'
      stay := stay }
  exact ⟨plan', planned, replans.isLaterPlan⟩

/-! ## An argument that is returned -/

namespace Handed

/-- A project with a function without parameters and one with a parameter. -/
def project : Project where
  root := "/p"
  functions := #[⟨"f", "m", [], false, []⟩, ⟨"g", "m", ["x"], false, []⟩]
  classes := #[]

/-- A watch of the project with nothing patched. -/
def watch : Watch := ⟨project, ⟨0⟩, .standard, .default, .empty, []⟩

/-- An empty list. -/
def list : Value := .sequence ⟨.observed 1, "list", "builtins", []⟩ .list []

def null : Value := .literal ⟨.observed 2, "NoneType", "builtins", []⟩ .none

def frame (name : String) (code : Nat) (args : NamedValues) : Frame :=
  ⟨⟨⟨code⟩, name, "/p/m.py", false, false⟩, ⟨args, none, none⟩, none⟩

/-- The first function passes the list to the second one. -/
def start : List Event := [.call (frame "f" 10 []), .call (frame "g" 11 [("x", list)])]

/-- The second function has returned. -/
def past : List Event := start ++ [.ret null none]

/-- The first function returns the list. -/
def returned : List Event := [.ret list none]

/-- The first function returns nothing. -/
def forgotten : List Event := [.ret null none]

/-- The call of the second function while it runs. -/
def running : Call where
  id := ⟨1⟩
  kind := .function
  definition := .function ⟨1⟩
  input := .ofList [("x", ⟨0⟩)]
  outcome := none
  effects := []
  caller := some ⟨0⟩
  subcalls := []
  moment := ⟨3⟩
  completedAt := none

/-- The call of the second function. -/
def inner : Call := { running with outcome := some (.returned ⟨1⟩), completedAt := some ⟨5⟩ }

theorem completes : watch.Completes past ⟨1⟩ inner where
  returned := ⟨start, null, none, running, rfl, by decide +kernel, rfl⟩
  found := by decide +kernel
  ended := Option.some_ne_none _

/-- No object is made again from anything but its parts. -/
def IsPlain (r : Recording) : Prop :=
  ∀ o ∈ r.objects, constructorCall? r o = none ∧ o.kind.activation? = none

instance (r : Recording) : Decidable (IsPlain r) :=
  inferInstanceAs (Decidable (∀ o ∈ r.objects, _))

theorem IsPlain.makersStay {r s : Recording} (before : IsPlain r) (after : IsPlain s) (plan : Plan) :
    MakersStay r s plan := by
  intro x o o' _ found found'
  obtain ⟨call, activation⟩ := before o (Array.mem_of_getElem? found)
  obtain ⟨call', activation'⟩ := after o' (Array.mem_of_getElem? found')
  rw [lateIngredients_eq_nil call activation, lateIngredients_eq_nil call' activation']

theorem makersStay_returned (plan : Plan) :
    MakersStay (watch.recording past) (watch.recording (past ++ returned)) plan := by
  have before : IsPlain (watch.recording past) := by decide +kernel
  have after : IsPlain (watch.recording (past ++ returned)) := by decide +kernel
  exact before.makersStay after plan

theorem makersStay_forgotten (plan : Plan) :
    MakersStay (watch.recording past) (watch.recording (past ++ forgotten)) plan := by
  have before : IsPlain (watch.recording past) := by decide +kernel
  have after : IsPlain (watch.recording (past ++ forgotten)) := by decide +kernel
  exact before.makersStay after plan

end Handed

/-- When a return completes a call, and the program goes on in two ways in which no object of the closure
is constructed or activated only then, the call has a plan both times, with the closure that it has at
its end. The plans agree exactly when the calls captured before the end have ended as often with each
object of the closure. -/
theorem past_decides_plan_iff (w : Watch) (past rest rest' : List Event) (id : CallId) (c : Call)
    (completes : w.Completes past id c) (plan : Plan)
    (planned : planForCall (w.recording past) id = .ok plan)
    (stay : MakersStay (w.recording past) (w.recording (past ++ rest)) plan)
    (stay' : MakersStay (w.recording past) (w.recording (past ++ rest')) plan) :
    ∃ first second, planForCall (w.recording (past ++ rest)) id = .ok first ∧
      planForCall (w.recording (past ++ rest')) id = .ok second ∧
      first.closure = plan.closure ∧ second.closure = plan.closure ∧
      (first.Agrees second ↔ ∀ x, .object x ∈ plan.closure →
        (outcomesBefore (w.recording (past ++ rest)) (w.recording past).lastMoment).count x =
          (outcomesBefore (w.recording (past ++ rest')) (w.recording past).lastMoment).count x) := by
  obtain ⟨plan₀, objects, effects, planned₀, isPlan⟩ :=
    planForCall_sound (w.sound_recording past) completes.found
  rw [planned] at planned₀
  obtain rfl := Except.ok.inj planned₀
  obtain ⟨first, planned, isLater⟩ := completes.exists_laterPlan isPlan rest stay
  obtain ⟨second, planned', isLater'⟩ := completes.exists_laterPlan isPlan rest' stay'
  exact ⟨first, second, planned, planned', isLater.closure, isLater'.closure,
    isLater.agrees_iff isLater'⟩

theorem past_decides_plan_iff_handed : Handed.watch.Completes Handed.past ⟨1⟩ Handed.inner ∧
    ∃ plan, planForCall (Handed.watch.recording Handed.past) ⟨1⟩ = .ok plan ∧
      MakersStay (Handed.watch.recording Handed.past)
        (Handed.watch.recording (Handed.past ++ Handed.returned)) plan ∧
      MakersStay (Handed.watch.recording Handed.past)
        (Handed.watch.recording (Handed.past ++ Handed.forgotten)) plan ∧
      ∃ first second,
        planForCall (Handed.watch.recording (Handed.past ++ Handed.returned)) ⟨1⟩ = .ok first ∧
        planForCall (Handed.watch.recording (Handed.past ++ Handed.forgotten)) ⟨1⟩ = .ok second ∧
        first.closure = plan.closure ∧ second.closure = plan.closure ∧
        (first.Agrees second ↔ ∀ x, .object x ∈ plan.closure →
          (outcomesBefore (Handed.watch.recording (Handed.past ++ Handed.returned))
              (Handed.watch.recording Handed.past).lastMoment).count x =
            (outcomesBefore (Handed.watch.recording (Handed.past ++ Handed.forgotten))
              (Handed.watch.recording Handed.past).lastMoment).count x) := by
  obtain ⟨plan, -, -, planned, -⟩ :=
    planForCall_sound (Handed.watch.sound_recording Handed.past) Handed.completes.found
  exact ⟨Handed.completes, plan, planned, Handed.makersStay_returned plan,
    Handed.makersStay_forgotten plan,
    past_decides_plan_iff Handed.watch Handed.past Handed.returned Handed.forgotten ⟨1⟩ Handed.inner
      Handed.completes plan planned (Handed.makersStay_returned plan)
      (Handed.makersStay_forgotten plan)⟩

/-- The past does not decide the plan of a call: a caller that returns the argument of the call makes it
count once more, and then it gets a name. -/
theorem not_past_decides_plan : ¬∀ (w : Watch) (past rest rest' : List Event),
    isNested [] (past ++ rest) = true → isNested [] (past ++ rest') = true →
    ∀ id c, id ∈ (w.recording past).captured → w.Completes past id c →
      ∀ first second, planForCall (w.recording (past ++ rest)) id = .ok first →
        planForCall (w.recording (past ++ rest')) id = .ok second → first.Agrees second := by
  intro decided
  have sound := Handed.watch.sound_recording Handed.past
  obtain ⟨plan, objects, effects, planned, isPlan⟩ :=
    planForCall_sound sound Handed.completes.found
  obtain ⟨first, planned, isLater⟩ :=
    Handed.completes.exists_laterPlan isPlan Handed.returned (Handed.makersStay_returned plan)
  obtain ⟨second, planned', isLater'⟩ :=
    Handed.completes.exists_laterPlan isPlan Handed.forgotten (Handed.makersStay_forgotten plan)
  have captured : ⟨1⟩ ∈ (Handed.watch.recording Handed.past).captured := by decide +kernel
  have agrees := decided Handed.watch Handed.past Handed.returned Handed.forgotten (by decide)
    (by decide) ⟨1⟩ Handed.inner captured Handed.completes first second planned planned'
  have inside : .object ⟨0⟩ ∈ plan.closure :=
    mem_closure_of_startsFrom sound Handed.completes.found rfl isPlan (by decide)
  have same := (isLater.agrees_iff isLater').1 agrees ⟨0⟩ inside
  have differ : (outcomesBefore (Handed.watch.recording (Handed.past ++ Handed.returned))
      (Handed.watch.recording Handed.past).lastMoment).count ⟨0⟩ ≠
    (outcomesBefore (Handed.watch.recording (Handed.past ++ Handed.forgotten))
      (Handed.watch.recording Handed.past).lastMoment).count ⟨0⟩ := by decide +kernel
  exact differ same

end Watch

end Reenact
