import Mathlib.Data.List.DropRight
import Reenact.Text.Quoted

/-!
# What a literal tells of its text

A character of a text is written as itself, or as a backslash and a letter that stands for it
(`escape_cases`). All that is proved here follows from this by induction on the text.

**The law** (`quotes`): the literal of a text is a single one. A quote inside it follows an odd number
of backslashes, and the closing quote an even number; no line ends inside; reading it back gives the
text, and so no two texts have one literal. Whether the literal holds a parameter name can be told from
the text alone.
-/

namespace Reenact.Text.Quoted

/-- A character behind `front` is escaped: an odd number of backslashes stands directly in front of
it. -/
def EscapesNext (front : List Char) : Prop :=
  (front.rtakeWhile (· == '\\')).length % 2 = 1

/-- `body` between two of `quote` is a single literal, which writes `text`. -/
structure Spells (quote : Char) (body text : List Char) : Prop where
  isQuote : quote = '\'' ∨ quote = '"'
  /-- Each of the quotes inside is escaped. -/
  escaped : ∀ front back, body = front ++ quote :: back → EscapesNext front
  /-- The closing quote is not escaped. -/
  closed : ¬EscapesNext body
  noLineFeed : '\n' ∉ body
  noReturn : '\r' ∉ body
  reads : decode (quote :: (body ++ [quote])) = some text

/-- The text could be the name of a parameter: letters, numbers and underscores, at least one, the
first no ASCII digit. -/
structure IsName (cs : List Char) : Prop where
  ne_nil : cs ≠ []
  chars : ∀ c ∈ cs, c = '_' ∨ isAlphanumeric c = true
  first : ∀ c, cs.head? = some c → c.isDigit = false

/-- What the literal of a text tells of it. -/
structure Quotes (s : String) : Prop where
  spells : ∃ quote body, (quoted s).toList = quote :: (body ++ [quote]) ∧ Spells quote body s.toList
  /-- No other text has this literal. -/
  only : ∀ t, quoted t = quoted s → t = s
  name : IsName s.toList → identifier? (quoted s).toList = some s.toList
  noName : ¬IsName s.toList → identifier? (quoted s).toList = none

variable {quote c d : Char} {cs front back name literal : List Char}

/-! ## One character -/

theorem quoteFor_isQuote (cs : List Char) : quoteFor cs = '\'' ∨ quoteFor cs = '"' := by
  unfold quoteFor
  split
  · exact .inr rfl
  · exact .inl rfl

/-- A character is written as itself, or as a backslash and what stands for it behind one. -/
theorem escape_cases (isQuote : quote = '\'' ∨ quote = '"') (c : Char) :
    (escape quote c = [c] ∧ c ≠ '\\' ∧ c ≠ '\n' ∧ c ≠ '\r' ∧ c ≠ quote) ∨
      ∃ d, escape quote c = ['\\', d] ∧ unescape d = some c := by
  unfold escape
  split_ifs with backslash lineFeed carriage tab same
  · exact .inr ⟨'\\', rfl, by rw [backslash]; rfl⟩
  · exact .inr ⟨'n', rfl, lineFeed ▸ rfl⟩
  · exact .inr ⟨'r', rfl, carriage ▸ rfl⟩
  · exact .inr ⟨'t', rfl, tab ▸ rfl⟩
  · refine .inr ⟨c, rfl, ?_⟩
    rw [same]
    rcases isQuote with rfl | rfl <;> rfl
  · exact .inl ⟨rfl, backslash, lineFeed, carriage, same⟩

/-- What stands for a character behind a backslash ends no line. -/
theorem ne_of_unescape (h : unescape d = some c) : d ≠ '\n' ∧ d ≠ '\r' := by
  constructor <;> rintro rfl <;> cases h

/-! ## Reading back -/

theorem decodeBody_escape (isQuote : quote = '\'' ∨ quote = '"') (c : Char) (rest : List Char) :
    decodeBody quote (escape quote c ++ rest) = (decodeBody quote rest).map (c :: ·) := by
  rcases escape_cases isQuote c with ⟨written, notBackslash, notLineFeed, notReturn, notQuote⟩ |
    ⟨d, written, stands⟩
  · rw [written, List.singleton_append, decodeBody]
    · simp [notQuote, notBackslash, notLineFeed, notReturn]
    · exact fun _ _ same => absurd same notBackslash
  · rw [written, List.cons_append, List.singleton_append, decodeBody, stands]
    cases decodeBody quote rest <;> rfl

theorem decodeBody_flatMap_escape (isQuote : quote = '\'' ∨ quote = '"') (cs : List Char) :
    decodeBody quote (cs.flatMap (escape quote) ++ [quote]) = some cs := by
  induction cs with
  | nil =>
    rcases isQuote with rfl | rfl <;> rfl
  | cons c cs ih =>
    rw [List.flatMap_cons, List.append_assoc, decodeBody_escape isQuote, ih, Option.map_some]

/-- A literal reads back as its text. -/
theorem decode_encode (cs : List Char) : decode (encode cs) = some cs := by
  have isQuote := quoteFor_isQuote cs
  rw [encode, decode, if_pos (by simpa using isQuote), decodeBody_flatMap_escape isQuote]

/-! ## Quotes and ends of lines inside -/

theorem escapesNext_concat :
    EscapesNext (front ++ [c]) ↔ c = '\\' ∧ ¬EscapesNext front := by
  unfold EscapesNext
  rw [List.rtakeWhile_concat]
  split
  · rename_i same
    rw [List.length_append, List.length_singleton, beq_iff_eq.1 same, eq_self, true_and]
    omega
  · rename_i other
    rw [beq_iff_eq] at other
    simp [other]

/-- Behind a whole character nothing is escaped that would not be escaped without it. -/
theorem escapesNext_escape_append (isQuote : quote = '\'' ∨ quote = '"') (c : Char)
    (front : List Char) : EscapesNext (escape quote c ++ front) ↔ EscapesNext front := by
  induction front using List.reverseRecOn with
  | nil =>
    have whole : ¬EscapesNext (escape quote c) := by
      rcases escape_cases isQuote c with ⟨written, notBackslash, -⟩ | ⟨d, written, -⟩
      · rw [written, ← List.nil_append [c], escapesNext_concat]
        exact fun escapes => notBackslash escapes.1
      · rw [written, ← List.singleton_append, escapesNext_concat]
        exact fun escapes => escapes.2 rfl
    rw [List.append_nil]
    exact iff_of_false whole nofun
  | append_singleton front x ih =>
    rw [← List.append_assoc, escapesNext_concat, escapesNext_concat, ih]

theorem not_escapesNext_flatMap_escape (isQuote : quote = '\'' ∨ quote = '"') (cs : List Char) :
    ¬EscapesNext (cs.flatMap (escape quote)) := by
  induction cs with
  | nil => exact nofun
  | cons c cs ih => rwa [List.flatMap_cons, escapesNext_escape_append isQuote]

/-- Inside one character a quote stands behind a single backslash only. -/
theorem eq_of_escape_eq (isQuote : quote = '\'' ∨ quote = '"')
    (h : escape quote c = front ++ quote :: back) : front = ['\\'] := by
  have notBackslash : quote ≠ '\\' := by
    rcases isQuote with rfl | rfl <;> decide
  rcases escape_cases isQuote c with ⟨written, -, -, -, notQuote⟩ | ⟨d, written, -⟩
  · -- the character is the quote, which is not written as itself
    rw [written] at h
    have mem : quote ∈ [c] := h ▸ List.mem_append_right _ List.mem_cons_self
    exact absurd (List.mem_singleton.1 mem).symm notQuote
  · rw [written] at h
    obtain _ | ⟨x, _ | ⟨y, front⟩⟩ := front
    · cases h
      exact absurd rfl notBackslash
    · cases h
      rfl
    · have := congrArg List.length h
      simp at this

theorem escapesNext_of_flatMap_escape_eq (isQuote : quote = '\'' ∨ quote = '"')
    (h : cs.flatMap (escape quote) = front ++ quote :: back) : EscapesNext front := by
  induction cs generalizing front with
  | nil =>
    have := congrArg List.length h
    simp at this
  | cons c cs ih =>
    rw [List.flatMap_cons] at h
    rcases List.append_eq_append_iff.1 h with ⟨more, rfl, others⟩ | ⟨rest, whole, others⟩
    · -- the quote belongs to a later character
      rw [escapesNext_escape_append isQuote]
      exact ih others
    · cases rest with
      | nil =>
        have first : EscapesNext [] := ih others.symm
        cases first
      | cons x rest =>
        -- the quote belongs to this character
        cases others
        rw [eq_of_escape_eq isQuote whole]
        rfl

theorem ne_of_mem_flatMap_escape (isQuote : quote = '\'' ∨ quote = '"')
    (mem : d ∈ cs.flatMap (escape quote)) : d ≠ '\n' ∧ d ≠ '\r' := by
  obtain ⟨c, -, inside⟩ := List.mem_flatMap.1 mem
  rcases escape_cases isQuote c with ⟨written, -, notLineFeed, notReturn, -⟩ | ⟨x, written, stands⟩
  · rw [written] at inside
    obtain rfl := List.mem_singleton.1 inside
    exact ⟨notLineFeed, notReturn⟩
  · rw [written] at inside
    rcases List.mem_cons.1 inside with rfl | inside
    · decide
    · obtain rfl := List.mem_singleton.1 inside
      exact ne_of_unescape stands

/-- A literal is a single one. -/
theorem spells_encode (cs : List Char) :
    Spells (quoteFor cs) (cs.flatMap (escape (quoteFor cs))) cs where
  isQuote := quoteFor_isQuote cs
  escaped _ _ := escapesNext_of_flatMap_escape_eq (quoteFor_isQuote cs)
  closed := not_escapesNext_flatMap_escape (quoteFor_isQuote cs) cs
  noLineFeed mem := (ne_of_mem_flatMap_escape (quoteFor_isQuote cs) mem).1 rfl
  noReturn mem := (ne_of_mem_flatMap_escape (quoteFor_isQuote cs) mem).2 rfl
  reads := decode_encode cs

/-! ## Names -/

/-- A literal holds a parameter name when it is that name between two equal quotes. -/
theorem identifier?_eq_some_iff : identifier? literal = some name ↔
    (literal = '\'' :: (name ++ ['\'']) ∨ literal = '"' :: (name ++ ['"'])) ∧
      isIdentifier name := by
  have unquoted : unquote? literal = some name ↔
      literal = '\'' :: (name ++ ['\'']) ∨ literal = '"' :: (name ++ ['"']) := by
    cases literal with
    | nil => simp [unquote?]
    | cons quote rest =>
      simp only [unquote?, Option.ite_none_right_eq_some, Bool.and_eq_true, Bool.or_eq_true,
        decide_eq_true_eq, Option.some.injEq, List.cons.injEq]
      constructor
      · rintro ⟨⟨isQuote, last⟩, rfl⟩
        have eq := List.dropLast_append_getLast? quote last
        rcases isQuote with rfl | rfl
        · exact .inl ⟨rfl, eq.symm⟩
        · exact .inr ⟨rfl, eq.symm⟩
      · rintro (⟨rfl, rfl⟩ | ⟨rfl, rfl⟩) <;> simp
  rw [identifier?, Option.filter_eq_some_iff, unquoted]

theorem isIdentifier_iff : isIdentifier cs = true ↔ IsName cs := by
  have digit : cs.head?.any Char.isDigit = false ↔ ∀ c, cs.head? = some c → c.isDigit = false := by
    cases cs.head? <;> simp
  simp only [isIdentifier, isIdentifierChar, Bool.and_eq_true, Bool.not_eq_true',
    List.isEmpty_eq_false_iff, List.all_eq_true, Bool.or_eq_true, beq_iff_eq, digit]
  exact ⟨fun ⟨⟨ne, chars⟩, first⟩ => ⟨ne, chars, first⟩, fun ⟨ne, chars, first⟩ => ⟨⟨ne, chars⟩, first⟩⟩

/-- A text whose literal has no backslash is written as itself. -/
theorem flatMap_escape_of_not_mem (isQuote : quote = '\'' ∨ quote = '"')
    (none : '\\' ∉ cs.flatMap (escape quote)) : cs.flatMap (escape quote) = cs := by
  induction cs with
  | nil => rfl
  | cons c cs ih =>
    rw [List.flatMap_cons, List.mem_append, not_or] at none
    rcases escape_cases isQuote c with ⟨written, -⟩ | ⟨d, written, -⟩
    · rw [List.flatMap_cons, written, ih none.2, List.singleton_append]
    · exact absurd (written ▸ List.mem_cons_self) none.1

/-- The characters that a literal between single quotes escapes stand in no name. -/
theorem IsName.not_mem (h : IsName cs) : '\\' ∉ cs ∧ '\n' ∉ cs ∧ '\r' ∉ cs ∧ '\t' ∉ cs ∧
    '\'' ∉ cs := by
  have each {c : Char} (none : isIdentifierChar c = false) : c ∉ cs := by
    intro mem
    rcases h.chars c mem with rfl | alphanumeric
    · cases none
    · rw [isIdentifierChar, alphanumeric, Bool.or_true] at none
      cases none
  exact ⟨each (by decide +kernel), each (by decide +kernel), each (by decide +kernel),
    each (by decide +kernel), each (by decide +kernel)⟩

/-- A name is written as itself, between single quotes. -/
theorem IsName.encode_eq (h : IsName cs) : encode cs = '\'' :: (cs ++ ['\'']) := by
  obtain ⟨backslash, lineFeed, carriage, tab, single⟩ := h.not_mem
  have quote : quoteFor cs = '\'' := by
    rw [quoteFor, List.contains_eq_mem, decide_eq_false single]
    rfl
  have plain : ∀ c ∈ cs, escape '\'' c = [c] := by
    intro c mem
    have ne {x : Char} (none : x ∉ cs) : c ≠ x := fun same => none (same ▸ mem)
    rw [escape, if_neg (ne backslash), if_neg (ne lineFeed), if_neg (ne carriage), if_neg (ne tab),
      if_neg (ne single)]
  rw [encode, quote, List.flatMap_congr plain, List.flatMap_singleton']

/-- The literal of a text holds a parameter name exactly when the text is one. -/
theorem identifier?_encode_iff : identifier? (encode cs) = some name ↔ name = cs ∧ IsName cs := by
  rw [identifier?_eq_some_iff, isIdentifier_iff]
  constructor
  · rintro ⟨literal, isName⟩
    have body : cs.flatMap (escape (quoteFor cs)) = name := by
      rcases literal with literal | literal <;>
        exact List.append_inj_left' (List.cons.inj literal).2 rfl
    have same := flatMap_escape_of_not_mem (quoteFor_isQuote cs) (body ▸ isName.not_mem.1)
    obtain rfl := body.symm.trans same
    exact ⟨rfl, isName⟩
  · rintro ⟨rfl, isName⟩
    exact ⟨.inl isName.encode_eq, isName⟩

/-! ## Any text -/

/-- Every literal is a single one that writes its text, and no other; it holds a parameter name exactly
when the text is one. -/
theorem quotes (s : String) : Quotes s := by
  have chars (s : String) : (quoted s).toList = encode s.toList := String.toList_ofList
  refine ⟨⟨_, _, chars s, spells_encode s.toList⟩, fun t same => ?_, fun isName => ?_,
    fun noName => ?_⟩
  · have same : encode t.toList = encode s.toList := by rw [← chars, ← chars, same]
    have read := decode_encode t.toList
    rw [same, decode_encode] at read
    exact (String.toList_inj.1 (Option.some.inj read)).symm
  · rw [chars]
    exact identifier?_encode_iff.2 ⟨rfl, isName⟩
  · rw [chars, Option.eq_none_iff_forall_ne_some]
    exact fun name found => noName (identifier?_encode_iff.1 found).2

/-- Both quotes, a backslash and the end of a line in one text. -/
example : quoted "it's\n \"a\\b\"" = "'it\\'s\\n \"a\\\\b\"'" := by decide +kernel

end Reenact.Text.Quoted
