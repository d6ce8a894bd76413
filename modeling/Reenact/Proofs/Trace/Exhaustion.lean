import Reenact.Proofs.Recording.Dropping
import Reenact.Proofs.Trace.Ownership
import Reenact.Proofs.Trace.Performing

/-!
# Generators at the end of a watch

A generator that runs to its end is resumed once more than it yields. What a watch keeps of its
resumptions until the recording is ended are all of them, in order; the end takes the last one out,
if the generator is exhausted and that one returned the null value.

**The law** (`endsGenerators`): of every stream of events, and whatever counts as exhausted, the end
of the recording takes exactly these calls out: of the list of their generator, of the captured
calls, and of the list in which their caller or the recording has them. Nothing else changes, and a
second end changes nothing at all.
-/

namespace Reenact

namespace Recorder

variable {r r' : Recorder}

/-- Every observation lists each call where it was made from. -/
theorem Step.files (step : r.Step r') (h : r.session.recording.Files) :
    r'.session.recording.Files := by
  have sets {s t : Session} {id : CallId} (h : s.recording.Files) (sets : s.SetsOutcome id t) :
      t.recording.Files := by
    obtain ⟨noted, outcome, notes, -, rfl⟩ := sets
    exact (notes.files h).modifyCall id fun _ => rfl
  cases step with
  | noted notes => exact notes.files h
  | opened opens => exact opens.files h
  | failed traceback top set => exact sets h set
  | closed top closes =>
    obtain ⟨before, rfl | set, rfl⟩ := closes
    · exact h.endCall _
    · exact (sets h set).endCall _
  | entered notes known => exact notes.files h
  | left top => exact h
  | mutated top => exact h.pushEffect ..
  | affected notes known => exact (notes.files h).pushEffect ..

/-- Every observation keeps each generator with one value. -/
theorem Step.keepsGenerators (step : r.Step r') (h : r.session.recording.KeepsGenerators) :
    r'.session.recording.KeepsGenerators := by
  have sets {s t : Session} {id : CallId} (h : s.recording.KeepsGenerators)
      (sets : s.SetsOutcome id t) : t.recording.KeepsGenerators := by
    obtain ⟨noted, outcome, notes, -, rfl⟩ := sets
    exact (notes.keepsGenerators h).ofObjects rfl rfl rfl
  have effect {s : Session} (h : s.recording.KeepsGenerators) (change : Change)
      (owner : Option CallId) : (s.addEffect change owner).1.recording.KeepsGenerators :=
    h.ofObjects (Recording.isFinished_pushEffect ..) (Recording.generators_pushEffect ..)
      (Recording.objects_pushEffect ..)
  cases step with
  | noted notes => exact notes.keepsGenerators h
  | opened opens => exact opens.keepsGenerators h
  | failed traceback top set => exact sets h set
  | closed top closes =>
    obtain ⟨before, rfl | set, rfl⟩ := closes
    · exact h.ofObjects rfl rfl rfl
    · exact (sets h set).ofObjects rfl rfl rfl
  | entered notes known => exact notes.keepsGenerators h
  | left top => exact h
  | mutated top => exact effect h ..
  | affected notes known => exact effect (notes.keepsGenerators h) ..

end Recorder

namespace Session

open Recording (callsOf mem_callsOf call?_without object?_without)

/-! ## Sessions in order -/

/-- The books are kept, each call is listed where it was made from, and each generator is kept with
one value. -/
structure InOrder (s : Session) : Prop extends KeepsBooks s where
  sound : s.recording.Sound
  files : s.recording.Files
  keeps : s.recording.KeepsGenerators

namespace InOrder

variable {s : Session} {isExhausted : Value → Bool} {g : ObjectId} {v : Value} {id last : CallId}

/-- A generator is kept with one value only. -/
theorem value_unique (h : InOrder s) {v' : Value} (mem : (g, v) ∈ s.recording.generators)
    (mem' : (g, v') ∈ s.recording.generators) : v = v' :=
  (Prod.mk.inj (List.inj_on_of_nodup_map h.keeps.once mem mem' rfl)).2

/-- A generator lists the calls that resume it. -/
theorem resumptionsOf_eq (h : InOrder s) (there : s.recording.HasGenerator g) :
    s.recording.resumptionsOf g = s.recording.callsOf (.resumption g) := by
  obtain ⟨o, found, isGenerator⟩ := there
  cases kind : o.kind with
  | generator activation calls =>
    rw [Recording.resumptionsOf_eq found kind]
    exact (h.generators found kind).resumptions
  | _ =>
    rw [kind] at isGenerator
    cases isGenerator

theorem resumptionsOf_of_mem (h : InOrder s) (mem : (g, v) ∈ s.recording.generators) :
    s.recording.resumptionsOf g = s.recording.callsOf (.resumption g) :=
  h.resumptionsOf_eq (h.keeps.listed.1 (List.mem_map.2 ⟨_, mem, rfl⟩))

theorem callsOf_nodup (h : InOrder s) (kind : CallKind) : (s.recording.callsOf kind).Nodup :=
  h.files.nodup.filter _

/-- Each call is listed in one place only. -/
theorem filesOnce (h : InOrder s) : s.recording.FilesOnce := by
  have own {x : ObjectId} {id : CallId} (mem : id ∈ s.recording.resumptionsOf x) :
      s.recording.resumptionsOf x = s.recording.callsOf (.resumption x) := by
    obtain ⟨o, activation, calls, found, kind, -⟩ := Recording.exists_of_mem_resumptionsOf mem
    exact h.resumptionsOf_eq ⟨o, found, by rw [kind]; rfl⟩
  exact
    { roots := fun id mem => by
        rw [h.files.roots] at mem
        exact (Recording.mem_callsFrom.1 mem).2
      subcalls := fun found id mem => by
        rw [h.files.subcalls found] at mem
        exact (Recording.mem_callsFrom.1 mem).2
      resumptions := fun mem => by
        rw [own mem] at mem
        exact (mem_callsOf.1 mem).2
      once := fun x => by
        cases eq : s.recording.resumptionsOf x with
        | nil => exact List.nodup_nil
        | cons id rest =>
          have mem : id ∈ s.recording.resumptionsOf x := eq ▸ List.mem_cons_self
          rw [← eq, own mem]
          exact h.callsOf_nodup _ }

theorem finish_eq (h : InOrder s) (isExhausted : Value → Bool) :
    (s.finish isExhausted).recording =
      (s.recording.without (s.recording.dropped isExhausted)).closed :=
  h.filesOnce.finish_eq h.keeps isExhausted

/-! ## The calls that are taken out -/

theorem mem_dropped_iff (h : InOrder s) : id ∈ s.recording.dropped isExhausted ↔
    ∃ g v, (g, v) ∈ s.recording.generators ∧ isExhausted v ∧
      (s.recording.callsOf (.resumption g)).getLast? = some id ∧ s.recording.ReturnsNull id := by
  rw [Recording.mem_dropped]
  refine exists_congr fun g => exists_congr fun v => and_congr_right fun mem => ?_
  rw [h.resumptionsOf_of_mem mem]

/-- Of a generator only the last resumption is taken out, and only if it is exhausted and that one
returned the null value. -/
theorem final_of_dropped (h : InOrder s) (mem : (g, v) ∈ s.recording.generators)
    (out : id ∈ s.recording.dropped isExhausted)
    (listed : id ∈ s.recording.callsOf (.resumption g)) : isExhausted v ∧
      (s.recording.callsOf (.resumption g)).getLast? = some id ∧ s.recording.ReturnsNull id := by
  obtain ⟨g', v', mem', exhausted, final, null⟩ := h.mem_dropped_iff.1 out
  have kind := (mem_callsOf.1 (List.mem_of_getLast? final)).2
  rw [(mem_callsOf.1 listed).2] at kind
  cases kind
  rw [h.value_unique mem mem']
  exact ⟨exhausted, final, null⟩

/-- A call that is taken out was captured, and was a root or a subcall of its caller. -/
theorem listed_of_dropped (h : InOrder s) (out : id ∈ s.recording.dropped isExhausted) :
    id ∈ s.recording.captured ∧ ∃ c, s.recording.call? id = some c ∧
      (c.caller = none → id ∈ s.recording.roots) ∧
      ∀ parent, c.caller = some parent →
        ∃ d, s.recording.call? parent = some d ∧ id ∈ d.subcalls := by
  obtain ⟨g, v, -, -, final, c, -, -, found, -⟩ := h.mem_dropped_iff.1 out
  have captured := (mem_callsOf.1 (List.mem_of_getLast? final)).1
  have made : (s.recording.call? id).map Call.caller = some c.caller := by
    rw [found, Option.map_some]
  refine ⟨captured, c, found, fun root => ?_, fun parent caller => ?_⟩
  · rw [h.files.roots, Recording.mem_callsFrom, made, root]
    exact ⟨captured, rfl⟩
  · obtain ⟨d, there⟩ := Recording.hasCall_iff.2 <|
      (h.files.callers found caller).trans (Recording.hasCall_iff.1 (.of_call? found))
    refine ⟨d, there, ?_⟩
    rw [h.files.subcalls there, Recording.mem_callsFrom, made, caller]
    exact ⟨captured, rfl⟩

/-! ## What generators have at the end -/

theorem resumptionsOf_finish (h : InOrder s) (mem : (g, v) ∈ s.recording.generators)
    (isExhausted : Value → Bool) :
    (s.finish isExhausted).recording.resumptionsOf g =
      (s.recording.callsOf (.resumption g)).filter (· ∉ s.recording.dropped isExhausted) := by
  rw [← h.resumptionsOf_of_mem mem, ← Recording.resumptionsOf_without, h.finish_eq]
  rfl

theorem resumptionsOf_finish_of_stays (h : InOrder s) (mem : (g, v) ∈ s.recording.generators)
    (stays : isExhausted v → ∀ last, (s.recording.callsOf (.resumption g)).getLast? = some last →
      ¬s.recording.ReturnsNull last) :
    (s.finish isExhausted).recording.resumptionsOf g = s.recording.callsOf (.resumption g) := by
  rw [h.resumptionsOf_finish mem]
  refine filter_not_mem_of_disjoint fun id out listed => ?_
  obtain ⟨exhausted, final, null⟩ := h.final_of_dropped mem out listed
  exact stays exhausted id final null

theorem resumptionsOf_finish_of_returnsNull (h : InOrder s)
    (mem : (g, v) ∈ s.recording.generators) (exhausted : isExhausted v)
    (final : (s.recording.callsOf (.resumption g)).getLast? = some last)
    (null : s.recording.ReturnsNull last) :
    (s.finish isExhausted).recording.resumptionsOf g =
      (s.recording.callsOf (.resumption g)).dropLast := by
  rw [h.resumptionsOf_finish mem, ← Recording.filter_bne_last (h.callsOf_nodup _) final]
  refine List.filter_congr fun id listed => ?_
  have only : id ∈ s.recording.dropped isExhausted ↔ id = last := by
    constructor
    · intro out
      exact Option.some.inj ((h.final_of_dropped mem out listed).2.1.symm.trans final)
    · rintro rfl
      exact h.mem_dropped_iff.2 ⟨g, v, mem, exhausted, final, null⟩
  simp only [only, bne, Bool.beq_eq_decide_eq, decide_not]

/-- An exhausted generator is left without its last resumption if and only if that one returned the
null value. -/
theorem resumptionsOf_finish_iff (h : InOrder s) (mem : (g, v) ∈ s.recording.generators)
    (exhausted : isExhausted v)
    (final : (s.recording.callsOf (.resumption g)).getLast? = some last) :
    (s.finish isExhausted).recording.resumptionsOf g =
      (s.recording.callsOf (.resumption g)).dropLast ↔ s.recording.ReturnsNull last := by
  refine ⟨fun shorter => ?_, h.resumptionsOf_finish_of_returnsNull mem exhausted final⟩
  by_contra stays
  -- else it would have all of them, one more than it has
  have whole : (s.finish isExhausted).recording.resumptionsOf g =
      s.recording.callsOf (.resumption g) := by
    refine h.resumptionsOf_finish_of_stays mem fun _ other final' => ?_
    rwa [← Option.some.inj (final.symm.trans final')]
  have length := congrArg List.length (whole.symm.trans shorter)
  have pos := List.length_pos_of_mem (List.mem_of_getLast? final)
  rw [List.length_dropLast] at length
  omega

theorem hasObject_of_lastReturn? {r : Recording} (sound : r.Sound) {last : CallId}
    {output : ObjectId} (h : r.lastReturn? g = some (last, output)) : r.HasObject output := by
  obtain ⟨_, -, h⟩ := Option.bind_eq_some_iff.1 h
  obtain ⟨c, found, h⟩ := Option.bind_eq_some_iff.1 h
  obtain ⟨_, returned, ⟨⟩⟩ := Option.bind_eq_some_iff.1 h
  unfold Call.output at returned
  split at returned <;> cases returned
  rename_i outcome
  exact ((sound.calls found).2.outcome _ outcome).1

/-- The end is not refused. -/
theorem finishChecked_eq_ok (h : InOrder s) (isExhausted : Value → Bool) :
    s.recording.finishChecked isExhausted = .ok (s.finish isExhausted).recording := by
  have returned : (s.recording.exhausted isExhausted).findSome? (fun id =>
      (s.recording.lastReturn? id).bind fun entry =>
        if (s.recording.object? entry.2).isSome then none else some entry.2) = none := by
    refine List.findSome?_eq_none_iff.2 fun g _ => ?_
    cases returned : s.recording.lastReturn? g with
    | none => rfl
    | some entry =>
      have there := hasObject_of_lastReturn? h.sound returned
      rw [Option.bind_some, if_pos (Option.isSome_iff_exists.2 there)]
  rw [Recording.finishChecked, h.keeps.going, if_neg Bool.false_ne_true, returned]
  rfl

/-- A second end changes nothing. -/
theorem finish_finish (h : InOrder s) (isExhausted isExhausted' : Value → Bool) :
    (s.finish isExhausted).finish isExhausted' = s.finish isExhausted := by
  have ended : (s.finish isExhausted).recording.isFinished = true := by
    rw [h.finish_eq]
    rfl
  show Session.mk _ (Recording.finish _ isExhausted') = _
  rw [Recording.finish, if_pos ended]

end InOrder

/-! ## The end -/

/-- The second session came from the first by its end, which took the calls `gone` out of it. -/
structure EndsGenerators (s t : Session) (isExhausted : Value → Bool) (gone : List CallId) :
    Prop where
  /-- Before the end all calls are captured, in order. -/
  allCaptured : s.recording.captured = (List.range s.recording.calls.size).map CallId.mk
  /-- Every generator was kept with the one value that tells whether it is exhausted. -/
  values : ∀ g, s.recording.HasGenerator g → ∃! v, (g, v) ∈ s.recording.generators
  /-- One that is exhausted is left without its last resumption if and only if that one returned the
  null value. -/
  exhausted : ∀ {g v last}, (g, v) ∈ s.recording.generators → isExhausted v →
    (s.recording.callsOf (.resumption g)).getLast? = some last →
    (t.recording.resumptionsOf g = (s.recording.callsOf (.resumption g)).dropLast ↔
      s.recording.ReturnsNull last)
  /-- Every other one has all of its resumptions. -/
  kept : ∀ {g v}, (g, v) ∈ s.recording.generators →
    (isExhausted v → ∀ last, (s.recording.callsOf (.resumption g)).getLast? = some last →
      ¬s.recording.ReturnsNull last) →
    t.recording.resumptionsOf g = s.recording.callsOf (.resumption g)
  /-- The calls that are taken out are those that generators are left without. -/
  mem_gone : ∀ {id}, id ∈ gone ↔ ∃ g v, (g, v) ∈ s.recording.generators ∧ isExhausted v ∧
    (s.recording.callsOf (.resumption g)).getLast? = some id ∧ s.recording.ReturnsNull id
  /-- They were captured, and were roots or subcalls of their callers. -/
  listed : ∀ {id}, id ∈ gone → id ∈ s.recording.captured ∧ ∃ c, s.recording.call? id = some c ∧
    (c.caller = none → id ∈ s.recording.roots) ∧
    ∀ parent, c.caller = some parent → ∃ d, s.recording.call? parent = some d ∧ id ∈ d.subcalls
  captured : t.recording.captured = s.recording.captured.filter (· ∉ gone)
  roots : t.recording.roots = s.recording.roots.filter (· ∉ gone)
  /-- No call changes but for its list of subcalls. -/
  calls : ∀ id, t.recording.call? id = (s.recording.call? id).map (·.without gone)
  /-- No object changes but for the lists of generators. -/
  objects : ∀ id, t.recording.object? id = (s.recording.object? id).map (·.without gone)
  effects : t.recording.effects = s.recording.effects
  rootEffects : t.recording.rootEffects = s.recording.rootEffects
  clock : t.recording.clock = s.recording.clock
  project : t.project = s.project
  /-- The end is not refused. -/
  answers : s.recording.finishChecked isExhausted = .ok t.recording
  /-- A second end changes nothing. -/
  again : ∀ isExhausted', t.finish isExhausted' = t

theorem InOrder.ends {s : Session} (h : InOrder s) (isExhausted : Value → Bool) :
    s.EndsGenerators (s.finish isExhausted) isExhausted (s.recording.dropped isExhausted) where
  allCaptured := h.files.captured
  values g there := by
    obtain ⟨⟨g', v⟩, mem, rfl⟩ := List.mem_map.1 (h.keeps.listed.2 there)
    exact ⟨v, mem, fun v' mem' => h.value_unique mem' mem⟩
  exhausted mem := h.resumptionsOf_finish_iff mem
  kept mem := h.resumptionsOf_finish_of_stays mem
  mem_gone := h.mem_dropped_iff
  listed := h.listed_of_dropped
  captured := by
    rw [h.finish_eq]
    rfl
  roots := by
    rw [h.finish_eq]
    rfl
  calls id := by
    rw [h.finish_eq, ← call?_without]
    rfl
  objects id := by
    rw [h.finish_eq, ← object?_without]
    rfl
  effects := by
    rw [h.finish_eq]
    rfl
  rootEffects := by
    rw [h.finish_eq]
    rfl
  clock := by
    rw [h.finish_eq]
    rfl
  project := rfl
  answers := h.finishChecked_eq_ok isExhausted
  again := h.finish_finish isExhausted

end Session

namespace Watch

/-- After every stream of events the session is in order. -/
theorem inOrder_session (w : Watch) (events : List Event) : (w.session events).InOrder where
  toKeepsBooks := w.keepsBooks_session events
  sound := w.sound_recording events
  files := Tracer.run_keeps (fun step => step.files) (Recorder.nests_start ..)
    (Recording.files_empty w.run) events
  keeps := Tracer.run_keeps (fun step => step.keepsGenerators) (Recorder.nests_start ..)
    (Recording.keepsGenerators_empty w.run) events

/-- Whatever the stream of events and whatever counts as exhausted, the end of a recording takes out
the last resumption of each exhausted generator that returned the null value, and leaves all else as
it was. -/
theorem endsGenerators (w : Watch) (events : List Event) (isExhausted : Value → Bool) :
    (w.session events).EndsGenerators ((w.session events).finish isExhausted) isExhausted
      ((w.session events).recording.dropped isExhausted) :=
  (w.inOrder_session events).ends isExhausted

end Watch

end Reenact
