import Reenact.Text.CharRun

/-!
# White space

The characters with the Unicode property White_Space, and trimming by it. Core's
`Char.isWhitespace` knows four of them (`isBlank_of_isWhitespace`).
-/

namespace Reenact.Text

/-- Characters with the property White_Space. -/
def blankRuns : List CharRun := [
  ⟨0x9, 0xD, 1⟩, ⟨0x20, 0x20, 1⟩, ⟨0x85, 0x85, 1⟩, ⟨0xA0, 0xA0, 1⟩, ⟨0x1680, 0x1680, 1⟩,
  ⟨0x2000, 0x200A, 1⟩, ⟨0x2028, 0x2029, 1⟩, ⟨0x202F, 0x202F, 1⟩, ⟨0x205F, 0x205F, 1⟩,
  ⟨0x3000, 0x3000, 1⟩]

/-- Whether the character is white space. -/
def isBlank (c : Char) : Bool :=
  CharRun.covers blankRuns c

/-- Every character that core counts as white space is one. -/
theorem isBlank_of_isWhitespace {c : Char} (h : c.isWhitespace = true) : isBlank c = true := by
  simp only [Char.isWhitespace, Bool.or_eq_true, decide_eq_true_eq] at h
  rcases h with ((rfl | rfl) | rfl) | rfl <;> decide

/-- The text without white space at its ends. -/
def trimBlanks (cs : List Char) : List Char :=
  ((cs.dropWhile isBlank).reverse.dropWhile isBlank).reverse

/-- Whether the text is empty or white space alone. -/
def isBlankText (s : String) : Bool :=
  s.toList.all isBlank

end Reenact.Text
