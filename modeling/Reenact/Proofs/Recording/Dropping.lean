import Reenact.Proofs.Recording.Filing

/-!
# What the end of a recording takes out

Ending a recording goes through the exhausted generators and takes calls out of one list after
another. Where each call is listed in one place only (`Recording.FilesOnce`), the order does not
matter, and all that is left is a recording without some of its calls: `Recording.without` takes
them out of every list at once.

**The law** (`finish_eq`): the end of a recording takes out the last resumption of each exhausted
generator if that returned the null value, and no other call.
-/

namespace Reenact

/-- What is left of an object when calls are taken out of the lists of generators. -/
def ObjectKind.without (gone : List CallId) : ObjectKind → ObjectKind
  | generator activation calls => .generator activation (calls.filter (· ∉ gone))
  | kind => kind

def Object.without (gone : List CallId) (o : Object) : Object :=
  { o with kind := o.kind.without gone }

/-- What is left of a call when calls are taken out of the lists of subcalls. -/
def Call.without (gone : List CallId) (c : Call) : Call :=
  { c with subcalls := c.subcalls.filter (· ∉ gone) }

theorem filter_not_mem_singleton (l : List CallId) (id : CallId) :
    l.filter (· ∉ [id]) = l.filter (· != id) :=
  List.filter_congr fun other _ => by simp [bne, Bool.beq_eq_decide_eq]

/-- Nothing is taken out of a list that does not have it. -/
theorem filter_not_mem_of_disjoint {l gone : List CallId} (apart : ∀ id ∈ gone, id ∉ l) :
    l.filter (· ∉ gone) = l :=
  List.filter_eq_self.2 fun id mem => decide_eq_true fun out => apart id out mem

theorem filter_filter_not_mem (l first second : List CallId) :
    (l.filter (· ∉ first)).filter (· ∉ second) = l.filter (· ∉ first ++ second) := by
  rw [List.filter_filter]
  refine List.filter_congr fun id _ => ?_
  simp [Bool.and_comm]

theorem ObjectKind.without_without (first second : List CallId) (kind : ObjectKind) :
    (kind.without first).without second = kind.without (first ++ second) := by
  cases kind with
  | generator => simp only [without, filter_filter_not_mem]
  | _ => rfl

theorem ObjectKind.isNone_without (gone : List CallId) (kind : ObjectKind) :
    (kind.without gone).isNone = kind.isNone := by
  cases kind <;> rfl

theorem ObjectKind.without_eq_self {gone : List CallId} {kind : ObjectKind}
    (plain : kind.isGenerator = false) : kind.without gone = kind := by
  cases kind with
  | generator => cases plain
  | _ => rfl

theorem Call.without_without (first second : List CallId) (c : Call) :
    (c.without first).without second = c.without (first ++ second) := by
  simp only [without, filter_filter_not_mem]

namespace Recording

variable {r s : Recording} {gone : List CallId}

/-- The recording without some of its calls. The calls themselves stay, and are listed nowhere. -/
def without (r : Recording) (gone : List CallId) : Recording :=
  { r with
    objects := r.objects.map (·.without gone)
    calls := r.calls.map (·.without gone)
    captured := r.captured.filter (· ∉ gone)
    roots := r.roots.filter (· ∉ gone) }

theorem call?_without (r : Recording) (gone : List CallId) (id : CallId) :
    (r.without gone).call? id = (r.call? id).map (·.without gone) :=
  Array.getElem?_map

theorem object?_without (r : Recording) (gone : List CallId) (id : ObjectId) :
    (r.without gone).object? id = (r.object? id).map (·.without gone) :=
  Array.getElem?_map

@[simp] theorem caller_without (r : Recording) (gone : List CallId) (id : CallId) :
    ((r.without gone).call? id).map Call.caller = (r.call? id).map Call.caller := by
  rw [call?_without, Option.map_map]
  rfl

@[simp] theorem kind_without (r : Recording) (gone : List CallId) (id : CallId) :
    ((r.without gone).call? id).map Call.kind = (r.call? id).map Call.kind := by
  rw [call?_without, Option.map_map]
  rfl

theorem without_nil (r : Recording) : r.without [] = r := by
  have lists (l : List CallId) : l.filter (· ∉ ([] : List CallId)) = l :=
    filter_not_mem_of_disjoint nofun
  have objects : r.objects.map (·.without []) = r.objects := by
    refine Array.ext_getElem? fun i => ?_
    rw [Array.getElem?_map]
    cases r.objects[i]? with
    | none => rfl
    | some o =>
      obtain ⟨_, _, _, _, _, kind⟩ := o
      cases kind <;> simp [Object.without, ObjectKind.without]
  have calls : r.calls.map (·.without []) = r.calls := by
    refine Array.ext_getElem? fun i => ?_
    rw [Array.getElem?_map]
    cases r.calls[i]? with
    | none => rfl
    | some c => simp [Call.without]
  unfold without
  rw [objects, calls, lists, lists]

theorem without_without (r : Recording) (first second : List CallId) :
    (r.without first).without second = r.without (first ++ second) := by
  simp only [without, Array.map_map, filter_filter_not_mem]
  congr 1
  · refine Array.map_congr_left fun o _ => ?_
    simp only [Function.comp_apply, Object.without, ObjectKind.without_without]
  · refine Array.map_congr_left fun c _ => ?_
    simp only [Function.comp_apply, Call.without_without]

/-! ## Last resumptions -/

/-- The call returned the null value. -/
def ReturnsNull (r : Recording) (id : CallId) : Prop :=
  ∃ c output o, r.call? id = some c ∧ c.output = some output ∧ r.object? output = some o ∧
    o.kind.isNone

/-- What a generator is left without at the end is its last resumption, if that returned the null
value. -/
theorem trailingResumption?_eq_some {x : ObjectId} {last : CallId} :
    r.trailingResumption? x = some last ↔
      (r.resumptionsOf x).getLast? = some last ∧ r.ReturnsNull last := by
  unfold trailingResumption? lastReturn? ReturnsNull
  cases (r.resumptionsOf x).getLast? with
  | none => simp
  | some final =>
    simp only [Option.bind_eq_bind, Option.bind_some, Option.some.injEq]
    constructor
    · intro h
      obtain ⟨⟨found, output⟩, returned, h⟩ := Option.bind_eq_some_iff.1 h
      obtain ⟨c, there, returned⟩ := Option.bind_eq_some_iff.1 returned
      obtain ⟨_, outcome, eq⟩ := Option.bind_eq_some_iff.1 returned
      cases eq
      obtain ⟨o, object, h⟩ := Option.bind_eq_some_iff.1 h
      split at h
      · rename_i null
        cases h
        exact ⟨rfl, c, output, o, there, outcome, object, null⟩
      · cases h
    · rintro ⟨rfl, c, output, o, there, outcome, object, null⟩
      simp [there, outcome, object, null]

theorem resumptionsOf_eq {x : ObjectId} {o : Object} {activation : Option Activation}
    {calls : List CallId} (found : r.object? x = some o)
    (kind : o.kind = .generator activation calls) :
    r.resumptionsOf x = calls := by
  rw [resumptionsOf, found, Option.map_some, kind]

/-- An object that lists a resumption is a generator. -/
theorem exists_of_mem_resumptionsOf {x : ObjectId} {id : CallId} (h : id ∈ r.resumptionsOf x) :
    ∃ o activation calls, r.object? x = some o ∧ o.kind = .generator activation calls ∧
      r.resumptionsOf x = calls := by
  unfold resumptionsOf at h
  split at h
  · rename_i activation calls eq
    obtain ⟨o, found, kind⟩ := Option.map_eq_some_iff.1 eq
    exact ⟨o, activation, calls, found, kind, resumptionsOf_eq found kind⟩
  · cases h

theorem resumptionsOf_without (r : Recording) (gone : List CallId) (x : ObjectId) :
    (r.without gone).resumptionsOf x = (r.resumptionsOf x).filter (· ∉ gone) := by
  rw [resumptionsOf, object?_without, resumptionsOf]
  cases r.object? x with
  | none => rfl
  | some o =>
    obtain ⟨_, _, _, _, _, kind⟩ := o
    cases kind <;> rfl

theorem returnsNull_without {id : CallId} : (r.without gone).ReturnsNull id ↔ r.ReturnsNull id := by
  constructor
  · rintro ⟨c, output, o, found, returned, there, null⟩
    rw [call?_without] at found
    rw [object?_without] at there
    obtain ⟨d, at_, rfl⟩ := Option.map_eq_some_iff.1 found
    obtain ⟨p, object, rfl⟩ := Option.map_eq_some_iff.1 there
    exact ⟨d, output, p, at_, returned, object, (ObjectKind.isNone_without ..).symm.trans null⟩
  · rintro ⟨c, output, o, found, returned, there, null⟩
    refine ⟨c.without gone, output, o.without gone, ?_, returned, ?_,
      (ObjectKind.isNone_without ..).trans null⟩
    · rw [call?_without, found, Option.map_some]
    · rw [object?_without, there, Option.map_some]

/-- Taking out other calls does not change what a generator is left without. -/
theorem trailingResumption?_without {x : ObjectId} (apart : ∀ id ∈ gone, id ∉ r.resumptionsOf x) :
    (r.without gone).trailingResumption? x = r.trailingResumption? x := by
  refine Option.ext fun last => ?_
  rw [trailingResumption?_eq_some, trailingResumption?_eq_some, resumptionsOf_without,
    filter_not_mem_of_disjoint apart, returnsNull_without]

/-! ## One generator -/

/-- Each call is listed with its caller or among the roots, and nowhere else. -/
structure FilesCallsOnce (r : Recording) : Prop where
  roots : ∀ id ∈ r.roots, (r.call? id).map Call.caller = some none
  subcalls : ∀ {parent d}, r.call? parent = some d → ∀ id ∈ d.subcalls,
    (r.call? id).map Call.caller = some (some parent)

/-- Each resumption is also listed with its generator, and no other call is. -/
structure FilesOnce (r : Recording) : Prop extends FilesCallsOnce r where
  resumptions : ∀ {x id}, id ∈ r.resumptionsOf x →
    (r.call? id).map Call.kind = some (.resumption x)
  once : ∀ x, (r.resumptionsOf x).Nodup

theorem FilesOnce.without (h : r.FilesOnce) (gone : List CallId) : (r.without gone).FilesOnce where
  roots id mem := by
    rw [caller_without]
    exact h.roots id (List.mem_of_mem_filter mem)
  subcalls found id mem := by
    rw [call?_without] at found
    obtain ⟨e, at_, rfl⟩ := Option.map_eq_some_iff.1 found
    rw [caller_without]
    exact h.subcalls at_ id (List.mem_of_mem_filter mem)
  resumptions mem := by
    rw [resumptionsOf_without] at mem
    rw [kind_without]
    exact h.resumptions (List.mem_of_mem_filter mem)
  once x := by
    rw [resumptionsOf_without]
    exact (h.once x).filter _

/-- Two generators have no resumption in common. -/
theorem FilesOnce.apart (h : r.FilesOnce) {x y : ObjectId} {id : CallId}
    (first : id ∈ r.resumptionsOf x) (second : id ∈ r.resumptionsOf y) : x = y := by
  have kind := h.resumptions first
  rw [h.resumptions second] at kind
  exact (CallKind.resumption.inj (Option.some.inj kind)).symm

/-- A change of one member of an array that all others have undergone already. -/
theorem modify_eq_map {α : Type} {a : Array α} {i : Nat} {f g : α → α}
    (here : ∀ x, a[i]? = some x → f x = g x)
    (others : ∀ j x, i ≠ j → a[j]? = some x → g x = x) : a.modify i f = a.map g := by
  refine Array.ext_getElem? fun j => ?_
  rw [Array.getElem?_modify, Array.getElem?_map]
  split
  · rename_i same
    subst same
    cases at_ : a[i]? with
    | none => rfl
    | some x => rw [Option.map_some, Option.map_some, here x at_]
  · rename_i differ
    cases at_ : a[j]? with
    | none => rfl
    | some x => rw [Option.map_some, others j x differ at_]

theorem detach_of_some {id parent : CallId} {c : Call} (found : r.call? id = some c)
    (caller : c.caller = some parent) : r.detach id =
      .ok (r.modifyCall parent fun c => { c with subcalls := c.subcalls.filter (· != id) }) := by
  unfold Recording.detach
  rw [findCall_eq_ok.2 found]
  simp only [bind, Except.bind, caller]
  rfl

theorem detach_of_none {id : CallId} {c : Call} (found : r.call? id = some c)
    (caller : c.caller = none) :
    r.detach id = .ok { r with roots := r.roots.filter (· != id) } := by
  unfold Recording.detach
  rw [findCall_eq_ok.2 found]
  simp only [bind, Except.bind, caller]
  rfl

/-- A call is not among the subcalls of calls that did not make it. -/
theorem FilesCallsOnce.without_eq_self (h : r.FilesCallsOnce) {id parent : CallId} {c d : Call}
    (found : r.call? id = some c) (differ : c.caller ≠ some parent)
    (there : r.call? parent = some d) : d.without [id] = d := by
  rw [Call.without, filter_not_mem_of_disjoint]
  intro other out
  obtain rfl := List.mem_singleton.1 out
  intro mem
  have caller := h.subcalls there other mem
  rw [found] at caller
  exact differ (Option.some.inj caller)

/-- Taking a call out of the list of its caller takes it out of all lists of subcalls and of
roots. -/
theorem FilesCallsOnce.detach (h : r.FilesCallsOnce) {id : CallId} (there : r.HasCall id) :
    r.detach id = .ok { r with
      calls := r.calls.map (·.without [id])
      roots := r.roots.filter (· ∉ [id]) } := by
  obtain ⟨c, found⟩ := there
  cases caller : c.caller with
  | some parent =>
    have calls : r.calls.modify parent.index
        (fun c => { c with subcalls := c.subcalls.filter (· != id) }) =
          r.calls.map (·.without [id]) := by
      refine modify_eq_map (fun d _ => ?_) fun j d differ at_ => ?_
      · simp only [Call.without, filter_not_mem_singleton]
      · refine h.without_eq_self found ?_ (show r.call? ⟨j⟩ = some d from at_)
        rw [caller]
        rintro ⟨⟩
        exact differ rfl
    have roots : r.roots.filter (· ∉ [id]) = r.roots := by
      refine filter_not_mem_of_disjoint fun other out => ?_
      obtain rfl := List.mem_singleton.1 out
      intro mem
      have root := h.roots other mem
      rw [found, Option.map_some, caller] at root
      cases root
    rw [detach_of_some found caller, roots, ← calls]
    rfl
  | none =>
    have calls : r.calls.map (·.without [id]) = r.calls := by
      refine Array.ext_getElem? fun i => ?_
      rw [Array.getElem?_map]
      cases at_ : r.calls[i]? with
      | none => rfl
      | some d =>
        have other : c.caller ≠ some ⟨i⟩ := by
          rw [caller]
          exact (Option.some_ne_none _).symm
        rw [Option.map_some, h.without_eq_self found other at_]
    rw [detach_of_none found caller, calls, filter_not_mem_singleton]

/-- Taking the last resumption out of the list of its generator takes it out of the lists of all
generators. -/
theorem FilesOnce.modify_eq_map (h : r.FilesOnce) {x : ObjectId} {last : CallId}
    (final : (r.resumptionsOf x).getLast? = some last) :
    r.objects.modify x.index (fun o => { o with kind := o.kind.dropResumption }) =
      r.objects.map (·.without [last]) := by
  have mem := List.mem_of_getLast? final
  refine Recording.modify_eq_map (fun o found => ?_) fun j o differ at_ => ?_
  · obtain ⟨p, activation, calls, there, kind, eq⟩ := exists_of_mem_resumptionsOf mem
    cases there.symm.trans found
    have once := h.once x
    rw [eq] at once final
    simp only [Object.without, kind, ObjectKind.dropResumption, ObjectKind.without,
      filter_not_mem_singleton, filter_bne_last once final]
  · have other : last ∉ r.resumptionsOf ⟨j⟩ := by
      intro listed
      rw [h.apart mem listed] at differ
      exact differ rfl
    cases kind : o.kind with
    | generator activation calls =>
      rw [resumptionsOf_eq (x := ⟨j⟩) at_ kind] at other
      rw [Object.without, kind, ObjectKind.without, filter_not_mem_of_disjoint, ← kind]
      intro id out
      rwa [List.mem_singleton.1 out]
    | _ => rw [Object.without, ObjectKind.without_eq_self (by rw [kind]; rfl)]

/-- Taking out a last resumption takes it out of every list. -/
theorem FilesOnce.dropTrailing (h : r.FilesOnce) {x : ObjectId} {last : CallId}
    (trailing : r.trailingResumption? x = some last) : r.dropTrailing x = r.without [last] := by
  obtain ⟨final, -⟩ := trailingResumption?_eq_some.1 trailing
  have mem := List.mem_of_getLast? final
  obtain ⟨c, found, -⟩ := Option.map_eq_some_iff.1 (h.resumptions mem)
  have detached := FilesCallsOnce.detach (r := r.modifyKind x (·.dropResumption))
    ⟨h.roots, h.subcalls⟩ (HasCall.of_call? found)
  unfold Recording.dropTrailing Recording.without
  rw [trailing, ← h.modify_eq_map final, filter_not_mem_singleton r.captured]
  dsimp only
  rw [detached]
  rfl

/-! ## All of them -/

/-- The calls that the end of the recording takes out, by generator. -/
def dropped (r : Recording) (isExhausted : Value → Bool) : List CallId :=
  (r.exhausted isExhausted).filterMap r.trailingResumption?

theorem mem_dropped {isExhausted : Value → Bool} {id : CallId} :
    id ∈ r.dropped isExhausted ↔ ∃ x v, (x, v) ∈ r.generators ∧ isExhausted v ∧
      (r.resumptionsOf x).getLast? = some id ∧ r.ReturnsNull id := by
  simp only [dropped, exhausted, List.mem_filterMap, List.mem_map, List.mem_filter,
    trailingResumption?_eq_some]
  constructor
  · rintro ⟨x, ⟨⟨y, v⟩, ⟨mem, out⟩, rfl⟩, last⟩
    exact ⟨y, v, mem, out, last⟩
  · rintro ⟨x, v, mem, out, last⟩
    exact ⟨x, ⟨(x, v), ⟨mem, out⟩, rfl⟩, last⟩

/-- Taking out last resumptions one after the other is the same as doing so at once. -/
theorem FilesOnce.foldl_dropTrailing (h : r.FilesOnce) {xs : List ObjectId} (once : xs.Nodup)
    {gone : List CallId} (apart : ∀ x ∈ xs, ∀ id ∈ gone, id ∉ r.resumptionsOf x) :
    xs.foldl Recording.dropTrailing (r.without gone) =
      r.without (gone ++ xs.filterMap r.trailingResumption?) := by
  induction xs generalizing gone with
  | nil => rw [List.filterMap_nil, List.append_nil, List.foldl_nil]
  | cons x rest ih =>
    obtain ⟨fresh, once⟩ := List.nodup_cons.1 once
    obtain ⟨own, others⟩ := List.forall_mem_cons.1 apart
    have same := trailingResumption?_without own
    rw [List.foldl_cons]
    cases trailing : r.trailingResumption? x with
    | none =>
      have stays : (r.without gone).dropTrailing x = r.without gone := by
        rw [Recording.dropTrailing, same, trailing]
      rw [stays, List.filterMap_cons_none trailing, ih once others]
    | some last =>
      rw [(h.without gone).dropTrailing (same.trans trailing), without_without,
        List.filterMap_cons_some trailing, ih once, List.append_assoc]
      · rfl
      · intro y mem id out
        rcases List.mem_append.1 out with out | out
        · exact others y mem id out
        · -- it is a resumption of another generator
          rw [List.mem_singleton.1 out]
          intro listed
          have final := (trailingResumption?_eq_some.1 trailing).1
          rw [h.apart (List.mem_of_getLast? final) listed] at fresh
          exact fresh mem

/-- The recording, closed. -/
def closed (r : Recording) : Recording :=
  { r with
    known := []
    generators := []
    isFinished := true }

/-- The end of a recording is the recording without the calls that are dropped, closed. -/
theorem FilesOnce.finish_eq (h : r.FilesOnce) (keeps : r.KeepsGenerators)
    (isExhausted : Value → Bool) :
    r.finish isExhausted = (r.without (r.dropped isExhausted)).closed := by
  have once : (r.exhausted isExhausted).Nodup :=
    keeps.once.sublist (List.filter_sublist.map Prod.fst)
  have folded := @FilesOnce.foldl_dropTrailing r h _ once [] nofun
  rw [without_nil, List.nil_append] at folded
  rw [Recording.finish, keeps.going, if_neg Bool.false_ne_true, folded]
  rfl

end Recording

end Reenact
