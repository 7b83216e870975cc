import CustomerSegments.Predicate.Filter

namespace CustomerSegments

/-- The text that a pattern without operators stands for: a backslash quotes the character behind it. -/
def literalOf : List Char → List Char
  | '\\' :: c :: cs => c :: literalOf cs
  | c :: cs => c :: literalOf cs
  | [] => []

theorem literalOf_cons_of_ne {c : Char} (plain : c ≠ '\\') (cs : List Char) :
    literalOf (c :: cs) = c :: literalOf cs := by
  rw [literalOf]
  intro quoted rest quote
  exact absurd quote plain

/-- The pattern for a literal text stands for that text. -/
theorem literalOf_escapePattern (cs : List Char) : literalOf (escapePattern cs) = cs := by
  induction cs with
  | nil => rfl
  | cons c cs ih =>
    by_cases mark : c ∈ patternMarks
    · rw [escapePattern, if_pos mark, literalOf, ih]
    · have plain : c ≠ '\\' := by
        rintro rfl
        exact mark (List.mem_cons_self ..)
      rw [escapePattern, if_neg mark, literalOf_cons_of_ne plain, ih]

theorem escapePattern_injective : Function.Injective escapePattern :=
  Function.LeftInverse.injective literalOf_escapePattern

/-- Whether a text ends with a backslash that quotes the character behind it; `quoted` says whether the first
character of the text is quoted itself. -/
def quotesNext (quoted : Bool) : List Char → Bool
  | [] => quoted
  | c :: cs => quotesNext (!quoted && c == '\\') cs

/-- A mark in the pattern for a literal text is quoted, or it is a backslash that quotes what follows. -/
theorem quotesNext_of_mark {cs front back : List Char} {c : Char} (shape : escapePattern cs = front ++ c :: back)
    (mark : c ∈ patternMarks) :
    quotesNext false front = true ∨ quotesNext false front = false ∧ c = '\\' ∧ back ≠ [] := by
  induction cs generalizing front with
  | nil => exact absurd shape.symm (by simp [escapePattern])
  | cons d cs ih =>
    rw [escapePattern] at shape
    by_cases quoted : d ∈ patternMarks
    · rw [if_pos quoted] at shape
      match front with
      | [] =>
        obtain ⟨rfl, rfl⟩ := List.cons.inj shape
        exact .inr ⟨rfl, rfl, List.cons_ne_nil _ _⟩
      | [b] =>
        obtain ⟨rfl, _⟩ := List.cons.inj shape
        exact .inl rfl
      | b :: d' :: front =>
        obtain ⟨rfl, behind⟩ := List.cons.inj shape
        have closed : quotesNext false ('\\' :: d' :: front) = quotesNext false front := rfl
        rw [closed]
        exact ih (List.cons.inj behind).2
    · rw [if_neg quoted] at shape
      cases front with
      | nil =>
        obtain ⟨rfl, _⟩ := List.cons.inj shape
        exact absurd mark quoted
      | cons b front =>
        obtain ⟨rfl, behind⟩ := List.cons.inj shape
        have plain : (d == '\\') = false := beq_false_of_ne fun backslash => quoted (by rw [backslash]; decide)
        rw [quotesNext, plain]
        exact ih behind

/-- A part of a pattern: a character that stands for itself, or one with another meaning. -/
inductive PatternPart where
  | character (c : Char)
  | operator (c : Char)
deriving DecidableEq

/-- The parts of a pattern. Behind a backslash a mark stands for itself and any other character does not; elsewhere it
is the other way round. -/
def patternParts : List Char → List PatternPart
  | '\\' :: c :: cs => (if c ∈ patternMarks then .character c else .operator c) :: patternParts cs
  | c :: cs => (if c ∈ patternMarks then .operator c else .character c) :: patternParts cs
  | [] => []

/-- The pattern for a literal text has no operators: its parts are the characters of the text. -/
theorem patternParts_escapePattern (cs : List Char) : patternParts (escapePattern cs) = cs.map .character := by
  induction cs with
  | nil => rfl
  | cons c cs ih =>
    by_cases mark : c ∈ patternMarks
    · rw [escapePattern, if_pos mark, patternParts, if_pos mark, ih, List.map_cons]
    · rw [escapePattern, if_neg mark, patternParts, if_neg mark, ih, List.map_cons]
      rintro _ _ rfl
      exact absurd (List.mem_cons_self ..) mark

/-- A search by a pattern is a search for exactly the needle. With a backslash as a quote the pattern reads as the
needle, and each mark in it is quoted or quotes what follows; so nothing in a needle acts as an operator, and no two
needles have the same pattern. -/
theorem pattern_denotes_needle (needle : String) :
    ∃ pattern, (patternFilter (.string needle)).get? "$regex" = some (.string pattern) ∧
      literalOf pattern.toList = needle.toList ∧
      (∀ front c back, pattern.toList = front ++ c :: back →
        c ∈ ['\\', '^', '$', '.', '|', '?', '*', '+', '(', ')', '[', ']', '{', '}'] →
        quotesNext false front = true ∨ quotesNext false front = false ∧ c = '\\' ∧ back ≠ []) ∧
      patternParts pattern.toList = needle.toList.map .character ∧
      ∀ other, (patternFilter (.string other)).get? "$regex" = some (.string pattern) → other = needle := by
  have made (s : String) : (patternFilter (.string s)).get? "$regex" =
      some (.string (String.ofList (escapePattern s.toList))) := rfl
  refine ⟨_, made needle, ?_, ?_, ?_, ?_⟩
  · rw [String.toList_ofList, literalOf_escapePattern]
  · intro front c back shape mark
    rw [String.toList_ofList] at shape
    exact quotesNext_of_mark shape mark
  · rw [String.toList_ofList, patternParts_escapePattern]
  · intro other same
    have patterns := Json.string.inj (Option.some.inj ((made other).symm.trans same))
    exact String.toList_injective (escapePattern_injective (String.ofList_injective patterns))

example : escapePattern "a.b\\d".toList = "a\\.b\\\\d".toList := by decide

end CustomerSegments
