import Reenact.Proofs.Trace.Observing

/-!
# Nested calls

The stack of a recorder mirrors the calls that have not ended. `Recorder.Nests` is the invariant:
the recording is sound, each call on the stack was made from the next one below it and has not ended,
every other call has, and what the foreign code on the stack may be about to change is part of the
recording. It survives every observation, also one that matches no earlier one, such as a return
while foreign code is innermost.

The invariant is what makes calls nest: a call that is opened or ends is the innermost one, and all
its earlier subcalls have ended, because a subcall is younger than its caller and no call on the
stack is younger than the innermost one.
-/

namespace Reenact

/-- The call that something running is. -/
def Running.call? : Running → Option CallId
  | .call id => some id
  | .foreign _ => none

/-- The calls on a stack, innermost first. -/
def runningCalls (stack : List Running) : List CallId := stack.filterMap Running.call?

@[simp] theorem runningCalls_call (id : CallId) (rest : List Running) :
    runningCalls (.call id :: rest) = id :: runningCalls rest := rfl

@[simp] theorem runningCalls_foreign (mutation : Option PendingMutation) (rest : List Running) :
    runningCalls (.foreign mutation :: rest) = runningCalls rest := rfl

/-- The innermost call is the first call on the stack. -/
theorem innermost_eq_head? (stack : List Running) :
    Recorder.innermost stack = (runningCalls stack).head? := by
  induction stack with
  | nil => rfl
  | cons top rest ih =>
    cases top with
    | call id => rfl
    | foreign mutation => exact ih

namespace Recording

variable {r s : Recording}

/-- The calls have not ended, and each was made from the next one. -/
def AreOpen (r : Recording) : List CallId → Prop
  | [] => True
  | id :: rest =>
    (∃ c, r.call? id = some c ∧ c.completedAt = none ∧ c.caller = rest.head?) ∧ r.AreOpen rest

/-- Every call that is not listed has ended. -/
def AllEndedBut (r : Recording) (open_ : List CallId) : Prop :=
  ∀ id, r.HasCall id → id ∉ open_ → r.HasEnded id

theorem AreOpen.running {ids : List CallId} (h : r.AreOpen ids) {id : CallId} (mem : id ∈ ids) :
    ∃ c, r.call? id = some c ∧ c.completedAt = none := by
  induction ids with
  | nil => cases mem
  | cons head rest ih =>
    obtain ⟨⟨c, found, running, -⟩, others⟩ := h
    rcases List.mem_cons.1 mem with rfl | mem
    · exact ⟨c, found, running⟩
    · exact ih others mem

/-- Open calls stay open when they keep their callers and do not end. -/
theorem AreOpen.mono {ids : List CallId} (h : r.AreOpen ids)
    (same : ∀ id ∈ ids, ∀ c, r.call? id = some c → ∃ c', s.call? id = some c' ∧
      c'.completedAt = c.completedAt ∧ c'.caller = c.caller) : s.AreOpen ids := by
  induction ids with
  | nil => trivial
  | cons head rest ih =>
    obtain ⟨⟨c, found, running, caller⟩, others⟩ := h
    obtain ⟨c', found', done, caller'⟩ := same head List.mem_cons_self c found
    exact ⟨⟨c', found', done.trans running, caller'.trans caller⟩,
      ih others fun id mem => same id (List.mem_cons_of_mem _ mem)⟩

/-- No open call is younger than the innermost one, and the others are older. -/
theorem AreOpen.lt_head (sound : r.Sound) {head : CallId} {rest : List CallId}
    (h : r.AreOpen (head :: rest)) {id : CallId} (mem : id ∈ rest) : id.index < head.index := by
  induction rest generalizing head with
  | nil => cases mem
  | cons next others ih =>
    obtain ⟨⟨c, found, -, caller⟩, tail⟩ := h
    obtain ⟨number, whole⟩ := sound.calls found
    have lt : next.index < head.index := number ▸ whole.caller next caller
    rcases List.mem_cons.1 mem with rfl | mem
    · exact lt
    · exact Nat.lt_trans (ih tail mem) lt

/-- The subcalls of the innermost open call have ended. -/
theorem AreOpen.subcalls_ended (sound : r.Sound) {head : CallId} {rest : List CallId}
    (h : r.AreOpen (head :: rest)) (ended : r.AllEndedBut (head :: rest)) {c : Call}
    (found : r.call? head = some c) {sub : CallId} (mem : sub ∈ c.subcalls) : r.HasEnded sub := by
  obtain ⟨number, whole⟩ := sound.calls found
  obtain ⟨d, there, caller, -⟩ := whole.subcalls sub mem
  obtain ⟨number', whole'⟩ := sound.calls there
  have younger : head.index < sub.index := by
    have := whole'.caller c.id caller
    rwa [number, number'] at this
  refine ended sub (.of_call? there) fun mem => ?_
  rcases List.mem_cons.1 mem with rfl | mem
  · exact Nat.lt_irrefl _ younger
  · exact Nat.lt_asymm younger (h.lt_head sound mem)

theorem AllEndedBut.mono {ids : List CallId} (h : r.AllEndedBut ids) (grows : r.Grows s)
    (old : ∀ id, s.HasCall id → r.HasCall id ∨ id ∈ ids) : s.AllEndedBut ids := by
  intro id known out
  obtain ⟨c, done, found, ended⟩ := h id ((old id known).resolve_right out) out
  obtain ⟨c', found', -, -, stays⟩ := grows.calls found
  exact ⟨c', done, found', stays done ended⟩

end Recording

namespace Recorder

/-- What foreign code on the stack may be about to change is part of the recording. -/
def KnowsPending (r : Recorder) : Prop :=
  ∀ mutation, .foreign mutation ∈ r.stack → HasPending r.session.recording mutation

/-- The recording is sound, and the calls that have not ended are those on the stack. -/
structure Nests (r : Recorder) : Prop where
  sound : r.session.recording.Sound
  areOpen : r.session.recording.AreOpen (runningCalls r.stack)
  ended : r.session.recording.AllEndedBut (runningCalls r.stack)
  pending : r.KnowsPending

theorem nests_start (project : Project) (run : RunId) (mutations : MutationTable)
    (settings : Settings) : (start (.start project run) mutations settings).Nests where
  sound := Recording.sound_empty run
  areOpen := trivial
  ended := fun id known _ => by
    obtain ⟨c, found⟩ := known
    simp [start, Session.start, Recording.empty, Recording.call?] at found
  pending := fun _ mem => by cases mem

theorem HasPending.mono {r s : Recording} {mutation : Option PendingMutation} (grows : r.Grows s)
    (h : HasPending r mutation) : HasPending s mutation :=
  fun m eq id mem => (h m eq id mem).mono grows

variable {r r' : Recorder}

/-- The innermost call is part of the recording. -/
theorem Nests.hasCall_top (h : r.Nests) {id : CallId} {rest : List Running}
    (top : r.stack = .call id :: rest) : r.session.recording.HasCall id := by
  have areOpen := h.areOpen
  rw [top] at areOpen
  obtain ⟨⟨c, found, -⟩, -⟩ := areOpen
  exact ⟨c, found⟩

/-- The subcalls of the innermost call have ended, and the call itself has not. -/
theorem Nests.innermost (h : r.Nests) {id : CallId} (current : r.currentCall = some id) {c : Call}
    (found : r.session.recording.call? id = some c) :
    c.completedAt = none ∧ ∀ sub ∈ c.subcalls, r.session.recording.HasEnded sub := by
  have head : (runningCalls r.stack).head? = some id := (innermost_eq_head? r.stack).symm.trans current
  obtain ⟨rest, eq⟩ := List.head?_eq_some_iff.1 head
  have areOpen := h.areOpen
  have ended := h.ended
  rw [eq] at areOpen ended
  refine ⟨?_, fun sub mem => areOpen.subcalls_ended h.sound ended found mem⟩
  obtain ⟨c', found', running⟩ := areOpen.running List.mem_cons_self
  rw [found] at found'
  cases found'
  exact running

/-! ## Each step keeps calls nested -/

theorem Nests.noted (h : r.Nests) {s : Session} (notes : r.session.Notes s) :
    ({ r with session := s } : Recorder).Nests where
  sound := notes.sound h.sound
  areOpen := h.areOpen.mono fun id _ c found =>
    ⟨c, by rw [notes.call?, found], rfl, rfl⟩
  ended := h.ended.mono notes.grows fun id known => by
    rw [Recording.HasCall, notes.call?] at known
    exact .inl known
  pending := fun mutation mem => (h.pending mutation mem).mono notes.grows

theorem Nests.popForeign (h : r.Nests) {mutation : Option PendingMutation} {rest : List Running}
    (top : r.stack = .foreign mutation :: rest) : ({ r with stack := rest } : Recorder).Nests where
  sound := h.sound
  areOpen := by
    have := h.areOpen
    rwa [top] at this
  ended := by
    have := h.ended
    rwa [top] at this
  pending := fun m mem => h.pending m (top ▸ List.mem_cons_of_mem _ mem)

theorem Nests.pushForeign (h : r.Nests) {mutation : Option PendingMutation}
    (known : HasPending r.session.recording mutation) :
    ({ r with stack := .foreign mutation :: r.stack } : Recorder).Nests where
  sound := h.sound
  areOpen := h.areOpen
  ended := h.ended
  pending := fun m mem => by
    rcases List.mem_cons.1 mem with eq | mem
    · cases eq
      exact known
    · exact h.pending m mem

/-- A change of the recording that keeps all calls, and so leaves the stack as it is. -/
theorem Nests.keepCalls (h : r.Nests) {s : Session} (sound : s.recording.Sound)
    (keeps : r.session.recording.KeepsCalls s.recording)
    (grows : r.session.recording.Grows s.recording)
    (size : s.recording.calls.size = r.session.recording.calls.size) :
    ({ r with session := s } : Recorder).Nests where
  sound := sound
  areOpen := h.areOpen.mono fun id _ c found => by
    obtain ⟨c', found', -, caller, done⟩ := keeps.call found
    exact ⟨c', found', done, caller⟩
  ended := h.ended.mono grows fun id known => by
    rw [Recording.hasCall_iff, size, ← Recording.hasCall_iff] at known
    exact .inl known
  pending := fun m mem => (h.pending m mem).mono grows

/-- Setting the outcome of the innermost call. -/
theorem Nests.setsOutcome (h : r.Nests) {id : CallId} {rest : List Running}
    (top : r.stack = .call id :: rest) {s : Session} (sets : r.session.SetsOutcome id s) :
    ({ r with session := s } : Recorder).Nests := by
  obtain ⟨noted, outcome, notes, known, rfl⟩ := sets
  have h := h.noted notes
  have running (c : Call) (found : noted.recording.call? id = some c) : c.completedAt = none :=
    (h.innermost (by rw [currentCall, top]; rfl) found).1
  have keeps := Recording.keepsCalls_modifyCall noted.recording id
    (Recording.keepsPlace_withOutcome outcome)
  exact h.keepCalls (h.sound.setOutcome running known) keeps (.of_keeps rfl keeps fun found => found)
    (Recording.size_calls_modifyCall ..)

/-- Adding a side effect to the innermost call. -/
theorem Nests.addEffect (h : r.Nests) {change : Change}
    (known : ∀ id ∈ change.referenced, r.session.recording.HasObject id) :
    ({ r with session := (r.session.addEffect change r.currentCall).1 } : Recorder).Nests :=
  h.keepCalls (h.sound.pushEffect change known fun _ _ current found => (h.innermost current found).1)
    (Recording.keepsCalls_pushEffect ..) (Recording.grows_pushEffect ..)
    (Recording.size_calls_pushEffect ..)

theorem Nests.complete (h : r.Nests) {id : CallId} {rest : List Running}
    (top : r.stack = .call id :: rest) :
    ({ r with session := r.session.record (·.endCall id), stack := rest } : Recorder).Nests := by
  have current : r.currentCall = some id := by rw [currentCall, top]; rfl
  obtain ⟨c, found⟩ := h.hasCall_top top
  obtain ⟨running, subcalls⟩ := h.innermost current found
  have areOpen := h.areOpen
  have ended := h.ended
  rw [top, runningCalls_call] at areOpen ended
  have grows := Recording.grows_complete found running
  refine ⟨h.sound.complete found running subcalls,
    areOpen.2.mono fun other mem d there => ?_, fun other known out => ?_,
    fun m mem => (h.pending m (top ▸ List.mem_cons_of_mem _ mem)).mono grows⟩
  · -- the calls below the innermost one are older, so they are not the one that ends
    have lt := areOpen.lt_head h.sound mem
    have differ : other ≠ id := by
      rintro rfl
      exact Nat.lt_irrefl _ lt
    refine ⟨d, ?_, rfl, rfl⟩
    rw [Session.record, Recording.call?_endCall, if_neg differ, there]
  · by_cases same : other = id
    · subst same
      refine ⟨Recording.withEnd r.session.recording.nextMoment c, _, ?_, rfl⟩
      rw [Session.record, Recording.call?_endCall, if_pos rfl, found]
      rfl
    · have known : r.session.recording.HasCall other := by
        rwa [Recording.hasCall_iff, Session.record, Recording.size_calls_endCall,
          ← Recording.hasCall_iff] at known
      obtain ⟨d, done, there, eq⟩ := ended other known (by simp [same, out])
      obtain ⟨d', there', -, -, stays⟩ := grows.calls there
      exact ⟨d', done, there', stays done eq⟩

/-- Opening a call from the innermost one. -/
theorem Nests.pushCall (h : r.Nests) (kind : CallKind) (definition : Definition) (input : Arguments)
    (starts : ∀ id ∈ (r.session.recording.newCall kind definition input r.currentCall).startsFrom,
      r.session.recording.HasObject id) : ({ r with
      session := { r.session with
        recording := (r.session.recording.pushCall kind definition input r.currentCall).1 }
      stack := .call ⟨r.session.recording.calls.size⟩ :: r.stack } : Recorder).Nests := by
  have keeps := Recording.keepsCalls_pushCall r.session.recording kind definition input r.currentCall
  have grows := Recording.grows_pushCall r.session.recording kind definition input r.currentCall
  refine ⟨h.sound.pushCall kind definition input starts fun parent c current found =>
    h.innermost current found, ⟨⟨_, by rw [Recording.call?_pushCall, if_pos rfl], rfl, ?_⟩,
      h.areOpen.mono fun id _ c found => ?_⟩, fun id known out => ?_, fun m mem => ?_⟩
  · -- the innermost call is part of the recording, so it counts as the caller
    show _ = (runningCalls r.stack).head?
    rw [← innermost_eq_head?]
    cases current : r.currentCall with
    | none =>
      rw [currentCall] at current
      rw [current]
      rfl
    | some parent =>
      have head : (runningCalls r.stack).head? = some parent :=
        (innermost_eq_head? r.stack).symm.trans current
      obtain ⟨c, found, -⟩ := h.areOpen.running (List.mem_of_head? head)
      rw [Recording.caller_newCall_of_known _ _ _ (.of_call? found)]
      exact current.symm
  · obtain ⟨c', found', -, caller, done⟩ := keeps.call found
    exact ⟨c', found', done, caller⟩
  · simp only [runningCalls_call, List.mem_cons, not_or] at out
    have known : r.session.recording.HasCall id := by
      have lt := Recording.hasCall_iff.1 known
      simp only [Recording.size_calls_pushCall] at lt
      have differ : id.index ≠ r.session.recording.calls.size := fun eq =>
        out.1 (by cases id; simp_all)
      exact Recording.hasCall_iff.2 (by omega)
    obtain ⟨d, done, there, eq⟩ := h.ended id known out.2
    obtain ⟨d', there', -, -, stays⟩ := grows.calls there
    exact ⟨d', done, there', stays done eq⟩
  · rcases List.mem_cons.1 mem with eq | mem
    · cases eq
    · exact (h.pending m mem).mono grows

/-- Opening a call, with all that is noted before and after it. -/
theorem Nests.opens (h : r.Nests) {id : CallId} {s : Session}
    (opens : r.session.Opens r.currentCall id s) :
    ({ r with session := s, stack := .call id :: r.stack } : Recorder).Nests := by
  obtain ⟨rfl, before, kind, definition, input, notes, starts, after⟩ := opens
  rw [← notes.sameCalls.calls]
  exact ((h.noted notes).pushCall kind definition input starts).noted after

/-- Every observation keeps calls nested. -/
theorem Nests.step (h : r.Nests) (step : r.Step r') : r'.Nests := by
  cases step with
  | noted notes => exact h.noted notes
  | opened opens => exact h.opens opens
  | failed traceback top sets =>
    have := h.setsOutcome top sets
    exact ⟨this.sound, this.areOpen, this.ended, this.pending⟩
  | closed top closes =>
    obtain ⟨before, rfl | sets, rfl⟩ := closes
    · exact h.complete top
    · exact (h.setsOutcome top sets).complete top
  | entered notes known => exact (h.noted notes).pushForeign known
  | left top => exact h.popForeign top
  | mutated top =>
    exact (h.popForeign top).addEffect (h.pending _ (top ▸ List.mem_cons_self) _ rfl)
  | affected notes known => exact (h.noted notes).addEffect known

/-! ## Each step keeps what was recorded -/

/-- The innermost call is part of the recording. -/
theorem Nests.hasCall_current (h : r.Nests) (id : CallId) (current : r.currentCall = some id) :
    r.session.recording.HasCall id := by
  have head : (runningCalls r.stack).head? = some id :=
    (innermost_eq_head? r.stack).symm.trans current
  obtain ⟨c, found, -⟩ := h.areOpen.running (List.mem_of_head? head)
  exact ⟨c, found⟩

theorem grows_setsOutcome {s t : Session} {id : CallId} (sets : s.SetsOutcome id t) :
    s.recording.Grows t.recording := by
  obtain ⟨noted, outcome, notes, -, rfl⟩ := sets
  exact notes.grows.trans (.of_keeps rfl (Recording.keepsCalls_modifyCall _ _
    (Recording.keepsPlace_withOutcome outcome)) fun found => found)

theorem Nests.grows_complete (h : r.Nests) {id : CallId} {rest : List Running}
    (top : r.stack = .call id :: rest) :
    r.session.recording.Grows (r.session.recording.endCall id) := by
  obtain ⟨c, found⟩ := h.hasCall_top top
  exact Recording.grows_complete found (h.innermost (by rw [currentCall, top]; rfl) found).1

/-- Every observation keeps what was recorded before it. -/
theorem Nests.grows (h : r.Nests) (step : r.Step r') :
    r.session.recording.Grows r'.session.recording := by
  cases step with
  | noted notes => exact notes.grows
  | opened opens =>
    obtain ⟨-, before, kind, definition, input, notes, -, after⟩ := opens
    exact (notes.grows.trans (Recording.grows_pushCall ..)).trans after.grows
  | failed traceback top sets => exact grows_setsOutcome sets
  | closed top closes =>
    obtain ⟨before, rfl | sets, rfl⟩ := closes
    · exact h.grows_complete top
    · exact (grows_setsOutcome sets).trans ((h.setsOutcome top sets).grows_complete top)
  | entered notes known => exact notes.grows
  | left top => exact .refl _
  | mutated top => exact Recording.grows_pushEffect ..
  | affected notes known => exact notes.grows.trans (Recording.grows_pushEffect ..)

end Recorder

end Reenact
