import Reenact.Proofs.Trace.Watch

/-!
# Causality

What a recording says about time agrees with what happened. `Recording.Causal` spells this out in
terms of the entries alone, without the stack that the recorder had while it wrote them.

**The law** (`causal_recording`): every stream of events leaves a causal recording, and ending the
recording keeps it so. Nothing is asked of the stream. Returns without calls, calls without returns
and exceptions out of place are all covered, because the recorder closes a call only when it is the
innermost one (`Recorder.Nests`).
-/

namespace Reenact

namespace Recording

/-- The moments of a recording follow causality. -/
structure Causal (r : Recording) : Prop where
  /-- No two objects, starts of calls, ends of calls or side effects share a moment. -/
  distinct : ∀ f g m, r.momentOf f = some m → r.momentOf g = some m → f = g
  /-- None of them is later than the latest moment handed out. -/
  bounded : ∀ f m, r.momentOf f = some m → m.tick ≤ r.lastMoment.tick
  /-- Objects, calls and side effects were each recorded in the order of their numbers. -/
  ordered : ∀ f g a b, f.Precedes g → r.momentOf f = some a → r.momentOf g = some b → a.before b
  /-- A part is older than the object. -/
  part : ∀ id o, r.object? id = some o → ∀ x ∈ o.parts, r.HasOlder x o.moment
  /-- An argument is older than the call. -/
  input : ∀ id c, r.call? id = some c → ∀ x ∈ c.input.values, r.HasOlder x c.moment
  /-- The receiver is older than the call. -/
  receiver : ∀ id c, r.call? id = some c → ∀ x, c.receiver = some x → r.HasOlder x c.moment
  /-- The generator that is resumed is older than the call. -/
  generator : ∀ id c, r.call? id = some c → ∀ x, c.generator = some x → r.HasOlder x c.moment
  /-- What a call ended with is older than its end. -/
  outcome : ∀ id c outcome done, r.call? id = some c → c.outcome = some outcome →
    c.completedAt = some done → r.HasOlder outcome.object done
  /-- What a side effect refers to is older than the side effect. -/
  referenced : ∀ id e, r.effect? id = some e → ∀ x ∈ e.referenced, r.HasOlder x e.moment
  /-- A side effect of a call happened after the call started and before it ended. -/
  owned : ∀ id c, r.call? id = some c → ∀ x ∈ c.effects, ∃ e, r.effect? x = some e ∧
    c.moment.before e.moment ∧ ∀ done, c.completedAt = some done → e.moment.before done
  /-- A subcall of a call that ended started after it and ended before it. -/
  nested : ∀ id c done, r.call? id = some c → c.completedAt = some done → ∀ x ∈ c.subcalls,
    ∃ d left, r.call? x = some d ∧ d.completedAt = some left ∧ c.moment.before d.moment ∧
      left.before done
  /-- Of two subcalls of a call, the later one started after the earlier one had ended. -/
  sequential : ∀ id c, r.call? id = some c → c.subcalls.Pairwise fun x y =>
    ∃ first second left, r.call? x = some first ∧ r.call? y = some second ∧
      first.completedAt = some left ∧ left.before second.moment

theorem Sound.causal {r : Recording} (h : r.Sound) : r.Causal where
  distinct _ _ _ first second := h.chronological.distinct first second
  bounded _ _ stamped := h.chronological.bounded stamped
  ordered _ _ _ _ front first second := h.chronological.ordered front first second
  part _ _ found x mem := (h.objects found).2.parts x mem
  input _ _ found x mem :=
    (h.calls found).2.starts x (List.mem_append_left _ (List.mem_append_left _ mem))
  receiver _ _ found x eq :=
    (h.calls found).2.starts x
      (List.mem_append_left _ (List.mem_append_right _ (Option.mem_toList.2 eq)))
  generator _ _ found x eq :=
    (h.calls found).2.starts x (List.mem_append_right _ (Option.mem_toList.2 eq))
  outcome _ _ outcome done found ended completed :=
    ((h.calls found).2.outcome outcome ended).2 done completed
  referenced _ _ found x mem := (h.effects found).2.referenced x mem
  owned _ _ found x mem := (h.calls found).2.effects x mem
  nested _ _ done found completed x mem := by
    obtain ⟨d, there, -, later, inside⟩ := (h.calls found).2.subcalls x mem
    obtain ⟨left, leaves, before⟩ := inside done completed
    exact ⟨d, left, there, leaves, later, before⟩
  sequential _ _ found := (h.calls found).2.siblings

end Recording

/-- Every stream of events leaves a causal recording, whether or not the recording is ended. -/
theorem Watch.causal_recording (w : Watch) (events : List Event) (isExhausted : Value → Bool) :
    (w.recording events).Causal ∧ ((w.recording events).finish isExhausted).Causal :=
  ⟨(w.sound_recording events).causal, ((w.sound_recording events).finish isExhausted).causal⟩

end Reenact
