import Mathlib.Data.Finset.Card
import Mathlib.Data.Finset.Range
import Mathlib.Order.Monotone.Basic
import Reenact.Proofs.Refusal
import Reenact.Proofs.Recording.Lookup
import Reenact.Setup.Render

/-!
# How deep code nests

Code for an object contains the code for what it is made with, and `construct` follows this no deeper
than the recording has objects. Nothing is lost by that: deeper writers write more objects
(`entails_constructWithin`), but each step deeper that adds anything adds an object of the recording,
so that the steps soon add nothing.

**The law** (`construct_eq_ok_iff`): code for an object without a name is written exactly when
`writeDefinition` writes it with `construct` itself for what is inside. The depth is gone from this
equation, and later proofs do not see it.
-/

namespace Reenact.Setup

variable {p : Project} {r : Recording} {names : Naming} {write write' : Writer}

/-! ## Writers that write more -/

section Entailment

variable (h : ∀ id, Entails (write id) (write' id))

include h

theorem entails_writeList (ids : List ObjectId) :
    Entails (writeList write ids) (writeList write' ids) :=
  (Entails.mapM fun id _ => h id).bind fun _ _ => .refl _

theorem entails_writeSequence (shape : Shape) (contained : List ObjectId) :
    Entails (writeSequence write shape contained) (writeSequence write' shape contained) :=
  (entails_writeList h contained).bind fun _ _ => .refl _

theorem entails_writeEntry (entry : ObjectId × ObjectId) :
    Entails (writeEntry write entry) (writeEntry write' entry) :=
  (h entry.1).bind fun _ _ => (h entry.2).bind fun _ _ => .refl _

theorem entails_writeKeywords (id : ObjectId) :
    Entails (writeKeywords r write id) (writeKeywords r write' id) := by
  refine (Entails.refl _).bind fun o _ => ?_
  cases o.kind with
  | map mapping =>
    refine (Entails.refl _).bind fun entries _ => ?_
    cases entries with
    | none => exact .refl _
    | some entries =>
      exact (Entails.mapM fun entry _ => (h entry.2).bind fun _ _ => .refl _).bind fun _ _ => .refl _
  | _ => exact .refl _

theorem entails_addArgument (a : ArgumentList) (param : String) (value : ObjectId) :
    Entails (addArgument r names write a param value) (addArgument r names write' a param value) := by
  unfold addArgument
  cases paramKind param with
  | plain => exact (h value).bind fun _ _ => .refl _
  | extra =>
    refine (Entails.refl _).bind fun o _ => ?_
    cases names.get? value with
    | some _ => exact .refl _
    | none =>
      cases o.kind with
      | sequence => exact (Entails.mapM fun id _ => h id).bind fun _ _ => .refl _
      | _ => exact (h value).bind fun _ _ => .refl _
  | keywords =>
    refine (entails_writeKeywords h value).bind fun keywords _ => ?_
    cases names.get? value with
    | some _ => exact .refl _
    | none =>
      cases keywords with
      | some _ => exact .refl _
      | none => exact (h value).bind fun _ _ => .refl _

theorem entails_writeCall (callee : Snippet) (input : Arguments) (params : List String) :
    Entails (writeCall r names write callee input params)
      (writeCall r names write' callee input params) := by
  refine Entails.bind (Entails.foldlM (fun param _ a => ?_) _) fun _ _ => .refl _
  cases input.get? (paramName param) with
  | none => exact .refl _
  | some value => exact entails_addArgument h a param value

theorem entails_writeUser (cls : ClassId) (initCall : Option CallId) :
    Entails (writeUser p r names write cls initCall) (writeUser p r names write' cls initCall) := by
  refine (Entails.refl _).bind fun c _ => ?_
  cases initCall with
  | none => exact .refl _
  | some init =>
    refine (Entails.refl _).bind fun call _ => (Entails.refl _).bind fun params _ => ?_
    exact (entails_writeCall h _ _ _).bind fun _ _ => .refl _

theorem entails_writeGenerator (activation : Activation) :
    Entails (writeGenerator p r names write activation)
      (writeGenerator p r names write' activation) := by
  refine (Entails.refl _).bind fun name _ => (Entails.refl _).bind fun params _ => ?_
  cases activation.maker with
  | function _ => exact (entails_writeCall h _ _ _).bind fun _ _ => .refl _
  | userObject owner => exact (h owner).bind fun _ _ => entails_writeCall h _ _ _

theorem entails_writeDefinition (id : ObjectId) :
    Entails (writeDefinition p r names write id) (writeDefinition p r names write' id) := by
  refine (Entails.refl _).bind fun o _ => ?_
  cases o.kind with
  | immutable | unknown => exact .refl _
  | sequence shape contained => exact entails_writeSequence h shape contained
  | map mapping =>
    exact (Entails.mapM fun entry _ => entails_writeEntry h entry).bind fun _ _ => .refl _
  | exception args | library _ args _ => exact (entails_writeList h args).bind fun _ _ => .refl _
  | user cls initCall uses => exact entails_writeUser h cls initCall
  | generator activation calls =>
    cases activation with
    | none => exact .refl _
    | some activation => exact entails_writeGenerator h activation

end Entailment

/-! ## Deeper writers -/

theorem constructWithin_of_named {id : ObjectId} {name : String} (named : names.get? id = some name)
    (depth : Nat) : constructWithin p r names depth id = .ok (.plain name) := by
  unfold constructWithin
  rw [named]

theorem constructWithin_succ {id : ObjectId} (unnamed : names.get? id = none) (depth : Nat) :
    constructWithin p r names (depth + 1) id =
      writeDefinition p r names (constructWithin p r names depth) id := by
  rw [constructWithin, unnamed]

/-- A writer that writes more also does so one step deeper. -/
theorem entails_step {depth depth' : Nat}
    (h : ∀ id, Entails (constructWithin p r names depth id) (constructWithin p r names depth' id))
    (id : ObjectId) : Entails (constructWithin p r names (depth + 1) id)
      (constructWithin p r names (depth' + 1) id) := by
  cases named : names.get? id with
  | some name =>
    rw [constructWithin_of_named named, constructWithin_of_named named]
    exact .refl _
  | none =>
    rw [constructWithin_succ named, constructWithin_succ named]
    exact entails_writeDefinition h id

theorem entails_constructWithin_succ (depth : Nat) (id : ObjectId) :
    Entails (constructWithin p r names depth id) (constructWithin p r names (depth + 1) id) := by
  induction depth generalizing id with
  | zero =>
    cases named : names.get? id with
    | some name =>
      rw [constructWithin_of_named named, constructWithin_of_named named]
      exact .refl _
    | none =>
      intro s answer
      unfold constructWithin at answer
      rw [named] at answer
      cases answer
  | succ depth ih => exact entails_step ih id

/-- Deeper writers write more. -/
theorem entails_constructWithin {depth depth' : Nat} (le : depth ≤ depth') (id : ObjectId) :
    Entails (constructWithin p r names depth id) (constructWithin p r names depth' id) := by
  induction le with
  | refl => exact .refl _
  | step _ ih => exact fun s answer => entails_constructWithin_succ _ id s (ih s answer)

/-! ## Deep enough -/

/-- The positions of the objects without names that are written within the depth. -/
def writtenWithin (p : Project) (r : Recording) (names : Naming) (depth : Nat) : Finset Nat :=
  (Finset.range r.objects.size).filter fun i =>
    (names.get? ⟨i⟩).isNone ∧ (constructWithin p r names depth ⟨i⟩).isOk

theorem mem_writtenWithin {depth i : Nat} : i ∈ writtenWithin p r names depth ↔
    i < r.objects.size ∧ names.get? ⟨i⟩ = none ∧
      ∃ s, constructWithin p r names depth ⟨i⟩ = .ok s := by
  rw [writtenWithin, Finset.mem_filter, Finset.mem_range, Option.isNone_iff_eq_none]
  cases constructWithin p r names depth ⟨i⟩ <;> simp [Except.isOk, Except.toBool]

/-- Only objects of the recording are written without a name. -/
theorem mem_writtenWithin_of_eq_ok {depth : Nat} {id : ObjectId} {s : Snippet}
    (unnamed : names.get? id = none) (answer : constructWithin p r names depth id = .ok s) :
    id.index ∈ writtenWithin p r names depth := by
  refine mem_writtenWithin.2 ⟨?_, unnamed, s, answer⟩
  cases depth with
  | zero =>
    unfold constructWithin at answer
    rw [unnamed] at answer
    cases answer
  | succ depth =>
    rw [constructWithin_succ unnamed] at answer
    obtain ⟨o, found, -⟩ := bind_eq_ok.1 answer
    exact Recording.hasObject_iff.1 (.of_object? (Recording.object_eq_ok.1 found))

/-- As long as each step deeper adds an object, there are as many of them as steps. -/
theorem le_card_writtenWithin {depth : Nat}
    (adds : ∀ d < depth, ¬writtenWithin p r names (d + 1) ⊆ writtenWithin p r names d) :
    depth ≤ (writtenWithin p r names depth).card := by
  induction depth with
  | zero => exact Nat.zero_le _
  | succ depth ih =>
    have fewer : writtenWithin p r names depth ⊆ writtenWithin p r names (depth + 1) := by
      intro i mem
      obtain ⟨lt, unnamed, s, answer⟩ := mem_writtenWithin.1 mem
      exact mem_writtenWithin.2 ⟨lt, unnamed, s, entails_constructWithin_succ depth _ s answer⟩
    have more := Finset.card_lt_card ⟨fewer, adds depth (Nat.lt_succ_self depth)⟩
    have before := ih fun d lt => adds d (Nat.lt_succ_of_lt lt)
    omega

/-- Some step deeper adds nothing before there are more steps than objects. -/
theorem exists_settled (p : Project) (r : Recording) (names : Naming) : ∃ depth ≤ r.objects.size,
    writtenWithin p r names (depth + 1) ⊆ writtenWithin p r names depth := by
  by_contra none
  push Not at none
  have many : r.objects.size + 1 ≤ (writtenWithin p r names (r.objects.size + 1)).card :=
    le_card_writtenWithin fun d lt => none d (Nat.le_of_lt_succ lt)
  have few := Finset.card_filter_le (Finset.range r.objects.size) fun i =>
    (names.get? ⟨i⟩).isNone ∧ (constructWithin p r names (r.objects.size + 1) ⟨i⟩).isOk
  rw [Finset.card_range] at few
  exact absurd (Nat.le_trans many few) (Nat.not_succ_le_self _)

/-- From a step that adds nothing on, none does. -/
theorem entails_of_settled {depth : Nat}
    (settled : writtenWithin p r names (depth + 1) ⊆ writtenWithin p r names depth) (more : Nat)
    (id : ObjectId) : Entails (constructWithin p r names (depth + more) id)
      (constructWithin p r names depth id) := by
  have step (id : ObjectId) : Entails (constructWithin p r names (depth + 1) id)
      (constructWithin p r names depth id) := by
    intro s answer
    cases named : names.get? id with
    | some name => rwa [constructWithin_of_named named] at answer ⊢
    | none =>
      obtain ⟨-, -, t, before⟩ :=
        mem_writtenWithin.1 (settled (mem_writtenWithin_of_eq_ok named answer))
      rw [entails_constructWithin_succ depth id t before] at answer
      rw [← Except.ok.inj answer]
      exact before
  induction more generalizing id with
  | zero => exact .refl _
  | succ more ih => exact fun s answer => step id s (entails_step ih id s answer)

/-- What is written at any depth is written by `construct`. -/
theorem construct_of_constructWithin {depth : Nat} {id : ObjectId} {s : Snippet}
    (answer : constructWithin p r names depth id = .ok s) : construct p r names id = .ok s := by
  obtain ⟨enough, le, settled⟩ := exists_settled p r names
  have deep := entails_constructWithin (Nat.le_add_left depth enough) id s answer
  exact entails_constructWithin (Nat.le_succ_of_le le) id s
    (entails_of_settled settled depth id s deep)

theorem construct_of_named {id : ObjectId} {name : String} (named : names.get? id = some name) :
    construct p r names id = .ok (.plain name) :=
  constructWithin_of_named named _

/-- Code for an object without a name is what makes the object, with all that is inside written
alike. -/
theorem construct_eq_ok_iff {id : ObjectId} {s : Snippet} (unnamed : names.get? id = none) :
    construct p r names id = .ok s ↔ define p r names id = .ok s := by
  constructor
  · intro answer
    rw [construct, constructWithin_succ unnamed] at answer
    exact entails_writeDefinition (fun id => entails_constructWithin_succ _ id) id s answer
  · intro answer
    rw [define, construct, ← constructWithin_succ unnamed] at answer
    exact construct_of_constructWithin answer

end Reenact.Setup
