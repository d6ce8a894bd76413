import Reenact.Id

/-!
# Arguments by name

The recorded arguments of a call: an object for each parameter name, kept in the order of the names
(`Arguments.ordered`). A later argument of the same name replaces an earlier one.
-/

namespace Reenact

/-- Puts an argument in its place among arguments in order, in the stead of one of its name. -/
def insertArgument (name : String) (id : ObjectId) :
    List (String × ObjectId) → List (String × ObjectId)
  | [] => [(name, id)]
  | entry :: rest =>
    if name < entry.1 then (name, id) :: entry :: rest
    else if name = entry.1 then (name, id) :: rest
    else entry :: insertArgument name id rest

/-- The names are the old ones and the new one. -/
theorem mem_names_insertArgument {name : String} {id : ObjectId} {l : List (String × ObjectId)}
    {other : String} :
    other ∈ (insertArgument name id l).map Prod.fst ↔ other = name ∨ other ∈ l.map Prod.fst := by
  induction l with
  | nil => simp [insertArgument]
  | cons entry rest ih =>
    simp only [insertArgument]
    split
    · simp
    · split
      · rename_i same
        simp [same]
      · simp only [List.map_cons, List.mem_cons, ih]
        constructor
        · rintro (h | h | h) <;> simp [h]
        · rintro (h | h | h) <;> simp [h]

/-- Inserting keeps the order of the names. -/
theorem pairwise_insertArgument {name : String} {id : ObjectId} {l : List (String × ObjectId)}
    (h : (l.map Prod.fst).Pairwise (· < ·)) :
    ((insertArgument name id l).map Prod.fst).Pairwise (· < ·) := by
  induction l with
  | nil => simp [insertArgument]
  | cons entry rest ih =>
    obtain ⟨first, others⟩ := List.pairwise_cons.1 h
    simp only [insertArgument]
    split
    · rename_i lt
      refine List.pairwise_cons.2 ⟨?_, h⟩
      intro other mem
      rcases List.mem_cons.1 mem with rfl | mem
      · exact lt
      · exact String.lt_trans lt (first other mem)
    · rename_i notBefore
      split
      · rename_i same
        refine List.pairwise_cons.2 ⟨?_, others⟩
        simpa [same] using first
      · rename_i ne
        refine List.pairwise_cons.2 ⟨?_, ih others⟩
        intro other mem
        rcases mem_names_insertArgument.1 mem with rfl | mem
        · by_cases lt : entry.1 < other
          · exact lt
          · exact absurd (String.le_antisymm lt notBefore) ne
        · exact first other mem

/-- The arguments of a call. -/
structure Arguments where
  entries : List (String × ObjectId)
  /-- Each name comes before all later ones. -/
  ordered : (entries.map Prod.fst).Pairwise (· < ·)
  deriving DecidableEq

namespace Arguments

def empty : Arguments := ⟨[], .nil⟩

instance : Inhabited Arguments := ⟨empty⟩

/-- Adds or replaces an argument. -/
def insert (a : Arguments) (name : String) (id : ObjectId) : Arguments :=
  ⟨insertArgument name id a.entries, pairwise_insertArgument a.ordered⟩

/-- The arguments of a list; the last of each name counts. -/
def ofList (l : List (String × ObjectId)) : Arguments :=
  l.foldl (fun a entry => a.insert entry.1 entry.2) empty

/-- The argument of that name. -/
def get? (a : Arguments) (name : String) : Option ObjectId :=
  a.entries.lookup name

/-- The objects, in the order of the names. -/
def values (a : Arguments) : List ObjectId :=
  a.entries.map Prod.snd

end Arguments

end Reenact
