import Reenact.Proofs.Recording.Calling
import Reenact.Proofs.Recording.Continuing
import Reenact.Proofs.Recording.Identity

/-!
# Calls of methods

What a call of a method is recorded with: the method, and an object for each argument under its name.
The receiver is not among the arguments. A resumption of a generator has no arguments at all, and is
never recorded as a call of a method (`kind_of_resume`).

**The law** (`call?_callMethod`): a call of a method that is recorded has the arguments that were given,
each as the object that its value is known as. No argument is lost where the names differ
(`get?_ofList_of_mem`).
-/

namespace Reenact

/-! ## Arguments by name -/

/-- The new argument is found under its name, and the others under theirs. -/
theorem lookup_insertArgument (name : String) (id : ObjectId) (l : List (String × ObjectId))
    (other : String) : (insertArgument name id l).lookup other =
      if other = name then some id else l.lookup other := by
  have cons (key : String) (x : ObjectId) (rest : List (String × ObjectId)) :
      ((key, x) :: rest).lookup other = if other = key then some x else rest.lookup other := by
    by_cases same : other = key
    · rw [List.lookup_cons, if_pos same, beq_iff_eq.2 same]
    · rw [List.lookup_cons, if_neg same, beq_eq_false_iff_ne.2 same]
  induction l with
  | nil => exact cons name id []
  | cons entry rest ih =>
    obtain ⟨key, x⟩ := entry
    simp only [insertArgument]
    split
    · exact cons name id _
    · split
      · rename_i same
        rw [cons, cons, same]
        split <;> rfl
      · rename_i differ
        rw [cons, cons, ih]
        by_cases same : other = key
        · rw [if_pos same, if_pos same, if_neg fun eq => differ (eq.symm.trans same)]
        · rw [if_neg same, if_neg same]

/-- Where no key is repeated, an entry of a list is found by its key. -/
theorem lookup_eq_some_iff_mem {α β : Type} [BEq α] [LawfulBEq α] {l : List (α × β)}
    (distinct : (l.map Prod.fst).Nodup) {key : α} {value : β} :
    l.lookup key = some value ↔ (key, value) ∈ l := by
  rw [List.lookup_eq_some_iff]
  constructor
  · rintro ⟨front, rest, rfl, -⟩
    exact List.mem_append_right _ List.mem_cons_self
  · intro mem
    obtain ⟨front, rest, rfl⟩ := List.append_of_mem mem
    refine ⟨front, rest, rfl, fun other inside => bne_iff_ne.2 fun same => ?_⟩
    rw [List.map_append, List.map_cons] at distinct
    exact (List.nodup_append.1 distinct).2.2 other.1 (List.mem_map_of_mem inside) key
      List.mem_cons_self same.symm

namespace Arguments

theorem get?_insert (a : Arguments) (name : String) (id : ObjectId) (other : String) :
    (a.insert name id).get? other = if other = name then some id else a.get? other :=
  lookup_insertArgument name id a.entries other

/-- Where no name is repeated, arguments are found as in the list. -/
theorem get?_ofList {l : List (String × ObjectId)} (distinct : (l.map Prod.fst).Nodup)
    (name : String) : (ofList l).get? name = l.lookup name := by
  have general (a : Arguments) :
      (l.foldl (fun a entry => a.insert entry.1 entry.2) a).get? name =
        (l.lookup name).or (a.get? name) := by
    induction l generalizing a with
    | nil => rfl
    | cons entry rest ih =>
      obtain ⟨new, distinct⟩ := List.nodup_cons.1 distinct
      rw [List.foldl_cons, ih distinct, get?_insert, List.lookup_cons]
      by_cases same : name = entry.1
      · have none : rest.lookup name = none := by
          rw [List.lookup_eq_none_iff]
          intro other mem
          refine bne_iff_ne.2 fun eq => new ?_
          exact List.mem_map.2 ⟨other, mem, eq.symm.trans same⟩
        rw [if_pos same, beq_iff_eq.2 same, none]
        rfl
      · rw [if_neg same, beq_eq_false_iff_ne.2 same]
  exact (general empty).trans (Option.or_none ..)

theorem get?_ofList_of_mem {l : List (String × ObjectId)} (distinct : (l.map Prod.fst).Nodup)
    {entry : String × ObjectId} (mem : entry ∈ l) : (ofList l).get? entry.1 = some entry.2 := by
  rw [get?_ofList distinct]
  exact (lookup_eq_some_iff_mem distinct).2 mem

end Arguments

theorem Recording.map_fst_of_knows {r : Recording} {args : NamedValues}
    {entries : List (String × ObjectId)} (known : List.Forall₂ r.Knows args entries) :
    entries.map Prod.fst = args.map Prod.fst := by
  induction known with
  | nil => rfl
  | cons first _ ih => rw [List.map_cons, List.map_cons, first.1, ih]

theorem Recording.map_fst_of_knows_toList {r : Recording} {arg? : Option (String × Value)}
    {item? : Option (String × ObjectId)} (known : List.Forall₂ r.Knows arg?.toList item?.toList) :
    item?.map Prod.fst = arg?.map Prod.fst := by
  cases arg? with
  | none =>
    cases item? with
    | none => rfl
    | some _ => cases known
  | some arg =>
    cases item? with
    | none => cases known
    | some entry =>
      obtain _ | ⟨first, -⟩ := known
      exact congrArg some first.1

/-! ## Calls of methods -/

namespace Session

variable {s : Session}

/-- A resumption is not a call of a method. -/
theorem kind_of_resume (sound : s.recording.Sound) {generator : Value} {definition : Definition}
    {args : NamedValues} {receiver : Option Value} {caller : Option CallId} {c : Call}
    (found : (s.resume generator definition args receiver caller).1.recording.call?
      ⟨s.recording.calls.size⟩ = some c) : ∃ x, c.kind = .resumption x := by
  obtain ⟨first, -⟩ := serialize_notes generator sound
  -- noting values adds no call
  have none {t : Session} (notes : s.Notes t)
      (found : t.recording.call? ⟨s.recording.calls.size⟩ = some c) : False := by
    rw [notes.call?] at found
    exact Recording.not_hasCall_next _ ⟨c, found⟩
  have pushed {t : Session} (notes : s.Notes t) (x : ObjectId)
      (found : (t.recording.pushCall (.resumption x) definition .empty caller).1.call?
        ⟨s.recording.calls.size⟩ = some c) : ∃ x, c.kind = .resumption x := by
    rw [Recording.call?_pushCall, notes.sameCalls.calls, if_pos rfl] at found
    cases found
    exact ⟨x, rfl⟩
  unfold resume at found
  dsimp only at found
  split at found
  · rename_i activation calls eq
    cases activation with
    | some activation => exact pushed first _ found
    | none =>
      obtain ⟨o, there, eq⟩ := Option.map_eq_some_iff.1 eq
      have unmade : o.kind.activation? = Option.none := by rw [eq]; rfl
      have second := activate_notes there unmade definition args receiver (first.sound sound)
      dsimp only at found
      split at found
      · exact (none (first.trans second) found).elim
      · exact pushed (first.trans second) _ found
  · exact (none first found).elim

/-- A call of a method that is recorded has the receiver and the arguments that were recorded for it. -/
theorem call?_callMethod (sound : s.recording.Sound) {method : MethodId} {receiver : Value}
    {args : NamedValues} {caller : Option CallId} {c : Call}
    (found : (s.callMethod method receiver args caller).1.recording.call?
      ⟨s.recording.calls.size⟩ = some c) :
    ∃ entries, c.definition = .method method ∧ c.input = .ofList entries ∧
      List.Forall₂ (s.callMethod method receiver args caller).1.recording.Knows args entries := by
  obtain ⟨first, -⟩ := serialize_notes receiver sound
  obtain ⟨second, -⟩ := serializeArguments_notes args (first.sound sound)
  obtain ⟨entries, input, known⟩ := knows_serializeArguments (s.serialize receiver).1 args
  have none (found : (s.serialize receiver).1.recording.call? ⟨s.recording.calls.size⟩ = some c) :
      False := by
    rw [first.call?] at found
    exact Recording.not_hasCall_next _ ⟨c, found⟩
  have pushed (found : (((s.serialize receiver).1.serializeArguments args).1.recording.pushCall
      (.method (s.serialize receiver).2) (.method method)
      ((s.serialize receiver).1.serializeArguments args).2 caller).1.call?
        ⟨s.recording.calls.size⟩ = some c) :
      c.definition = .method method ∧ c.input = .ofList entries := by
    rw [Recording.call?_pushCall, (first.trans second).sameCalls.calls, if_pos rfl] at found
    cases found
    exact ⟨rfl, input⟩
  have keeps {r : Recording} (same : r.known =
      ((s.serialize receiver).1.serializeArguments args).1.recording.known) :
      List.Forall₂ r.Knows args entries :=
    known.imp fun _ _ ⟨name, there⟩ => ⟨name, by rw [Recording.lookup, same]; exact there⟩
  unfold callMethod at found ⊢
  dsimp only at found ⊢
  split at found
  · exact (none found).elim
  · split at found
    · rename_i isUser
      rw [if_pos isUser]
      split at found
      · obtain ⟨definition, input⟩ := pushed found
        exact ⟨entries, definition, input, keeps (Recording.known_pushCall ..)⟩
      · obtain ⟨definition, input⟩ := pushed found
        exact ⟨entries, definition, input, keeps (Recording.known_pushCall ..)⟩
    · exact (none found).elim

end Session

end Reenact
