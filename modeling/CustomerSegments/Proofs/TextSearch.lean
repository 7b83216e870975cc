import CustomerSegments.Proofs.RuleTests

namespace CustomerSegments

namespace Text

/-- Whether the last character of a text that is not skipped has a case; `inWord` says what is so before the text. -/
def casedBehind (inWord : Bool) : List Char → Bool
  | [] => inWord
  | c :: cs => casedBehind (if isCaseIgnorable c then inWord else isCased c) cs

/-- A word ends between two texts: the last character that is not skipped before the place has a case, and the
next one has none. -/
def endsWord (before after : List Char) : Bool :=
  casedBehind false before && !casedAhead after

/-- Lower case of a text that another one follows. -/
def lowerBefore (after : List Char) (inWord : Bool) : List Char → List Char
  | [] => []
  | c :: cs =>
    let lowered :=
      if c = 'Σ' then [if inWord && !casedAhead (cs ++ after) then 'ς' else 'σ'] else lowerChar c
    lowered ++ lowerBefore after (if isCaseIgnorable c then inWord else isCased c) cs

theorem casedBehind_append (inWord : Bool) (cs after : List Char) :
    casedBehind inWord (cs ++ after) = casedBehind (casedBehind inWord cs) after := by
  induction cs generalizing inWord with
  | nil => rfl
  | cons c cs ih => exact ih _

theorem lowerFrom_append (inWord : Bool) (cs after : List Char) :
    lowerFrom inWord (cs ++ after) = lowerBefore after inWord cs ++ lowerFrom (casedBehind inWord cs) after := by
  induction cs generalizing inWord with
  | nil => rfl
  | cons c cs ih => rw [List.cons_append, lowerFrom, ih, lowerBefore, List.append_assoc, casedBehind]

theorem lowerBefore_nil (inWord : Bool) (cs : List Char) : lowerBefore [] inWord cs = lowerFrom inWord cs := by
  have whole := lowerFrom_append inWord cs []
  rw [List.append_nil, lowerFrom, List.append_nil] at whole
  exact whole.symm

theorem finalSigma_inj (final final' : Bool) :
    (if final then 'ς' else 'σ') = (if final' then 'ς' else 'σ') ↔ final = final' := by
  cases final <;> cases final' <;> decide

/-- Two places lower a text alike if its capital sigmas end words alike in both. -/
theorem lowerBefore_eq_iff {inWord inWord' : Bool} {after after' cs : List Char} :
    lowerBefore after inWord cs = lowerBefore after' inWord' cs ↔
      ∀ front back, cs = front ++ 'Σ' :: back →
        (casedBehind inWord front && !casedAhead (back ++ after)) =
          (casedBehind inWord' front && !casedAhead (back ++ after')) := by
  induction cs generalizing inWord inWord' with
  | nil => simp [lowerBefore]
  | cons c cs ih =>
    have first : lowerBefore after inWord (c :: cs) = lowerBefore after' inWord' (c :: cs) ↔
        (c = 'Σ' → (inWord && !casedAhead (cs ++ after)) = (inWord' && !casedAhead (cs ++ after'))) ∧
          lowerBefore after (if isCaseIgnorable c then inWord else isCased c) cs =
            lowerBefore after' (if isCaseIgnorable c then inWord' else isCased c) cs := by
      rw [lowerBefore, lowerBefore]
      by_cases sigma : c = 'Σ'
      · simp only [sigma, if_true, List.singleton_append, List.cons.injEq, finalSigma_inj, forall_const]
      · simp only [sigma, if_false, List.append_cancel_left_eq, false_imp_iff, true_and]
    rw [first, ih]
    constructor
    · rintro ⟨here, later⟩ front back shape
      cases front with
      | nil =>
        obtain ⟨rfl, rfl⟩ := List.cons.inj shape
        exact here rfl
      | cons d front =>
        rw [List.cons_append, List.cons.injEq] at shape
        obtain ⟨rfl, shape⟩ := shape
        exact later front back shape
    · intro alike
      refine ⟨?_, fun front back shape => alike (c :: front) back (congrArg (c :: ·) shape)⟩
      rintro rfl
      exact alike [] cs rfl

/-- Every capital sigma of a text ends a word, or not, as it does in the text by itself. -/
def KeepsSigmas (before text after : List Char) : Prop :=
  ∀ front back, text = front ++ 'Σ' :: back → endsWord (before ++ front) (back ++ after) = endsWord front back

/-- Where a text stands it has its own lower case exactly if it keeps its sigmas there. -/
theorem lowerBefore_eq_lowerFrom_iff {before text after : List Char} :
    lowerBefore after (casedBehind false before) text = lowerFrom false text ↔ KeepsSigmas before text after := by
  rw [← lowerBefore_nil, lowerBefore_eq_iff]
  simp only [KeepsSigmas, endsWord, casedBehind_append, List.append_nil]

theorem keepsSigmas_of_not_mem {before text after : List Char} (none : 'Σ' ∉ text) : KeepsSigmas before text after := by
  rintro front back rfl
  exact absurd (List.mem_append_right front List.mem_cons_self) none

/-- A part of a text that keeps its sigmas is found in any case. -/
theorem lower_infix {before text after : List Char} (kept : KeepsSigmas before text after) :
    lowerFrom false text <:+: lowerFrom false (before ++ text ++ after) := by
  rw [List.append_assoc, lowerFrom_append, lowerFrom_append, lowerBefore_eq_lowerFrom_iff.2 kept, ← List.append_assoc]
  exact ⟨_, _, rfl⟩

theorem toList_lower (s : String) : (lower s).toList = lowerFrom false s.toList :=
  String.toList_ofList

end Text

namespace Rule

variable {rule : Rule} {operator : Operator} {document v : Json} {needle s : String}

/-- A search holds if the needle occurs in some text, both put in lower case, and its denial if it occurs in none. -/
theorem Compares.holds_compile_search (compares : rule.Compares operator) (now : Instant)
    (value : rule.value = .string needle) (resolved : resolve document (storedField rule.term.field) = some v) :
    let found := v.elements.any (Operand.value (.string (Text.lower needle))).isWithin
    (operator = .contains → (compile [rule] now).predicate.holds document = found) ∧
      (operator = .notContains → (compile [rule] now).predicate.holds document = !found) := by
  intro found
  have text : rule.term.value.asText = needle := congrArg Json.asText value
  rw [compares.holds_compile now resolved]
  constructor
  · rintro rfl
    simp [Condition.isNegative, Condition.test, Term.operand, text, found]
  · rintro rfl
    simp [Condition.isNegative, Condition.test, Term.operand, text, found]

/-- A search finds what occurs in a text as it is written. If a field is a text or has a text among its elements, then
the rule that searches the field for a part of the text holds and the rule that denies it does not, provided that
each capital sigma of the part, if there are any, ends a word in the text exactly if it does in the part by itself. -/
theorem contains_finds_occurrences (compares : rule.Compares operator) (now : Instant)
    (value : rule.value = .string needle) (resolved : resolve document (storedField rule.term.field) = some v)
    (element : .string s ∈ v.elements) {before after : List Char} (occurs : s.toList = before ++ needle.toList ++ after)
    (kept : 'Σ' ∈ needle.toList → Text.KeepsSigmas before needle.toList after) :
    (operator = .contains → (compile [rule] now).predicate.holds document = true) ∧
      (operator = .notContains → (compile [rule] now).predicate.holds document = false) := by
  have always : Text.KeepsSigmas before needle.toList after := by
    by_cases sigma : 'Σ' ∈ needle.toList
    · exact kept sigma
    · exact Text.keepsSigmas_of_not_mem sigma
  have within : (Operand.value (.string (Text.lower needle))).isWithin (.string s) = true := by
    rw [Operand.isWithin, Text.occursIn_iff, Text.toList_lower, Text.toList_lower, occurs]
    exact Text.lower_infix always
  have found : v.elements.any (Operand.value (.string (Text.lower needle))).isWithin = true :=
    List.any_eq_true.2 ⟨_, element, within⟩
  obtain ⟨search, denial⟩ := compares.holds_compile_search now value resolved
  rw [found] at search denial
  exact ⟨search, denial⟩

/-- A word that ends in the part but goes on in the text is not found. -/
theorem contains_finds_occurrences_of_word_end :
    let odysseus : Json := .mk [("location", .string "ΟΔΥΣΣΕΑΣ")]
    (compile [.single "location" "contains" (.string "ΣΕΑΣ")] .epoch).predicate.holds odysseus = true ∧
      (compile [.single "location" "contains" (.string "ΟΔΥΣ")] .epoch).predicate.holds odysseus = false := by
  intro odysseus
  have compares : (Rule.single "location" "contains" (.string "ΣΕΑΣ")).Compares .contains :=
    ⟨by decide +kernel, by decide +kernel, by decide +kernel⟩
  have resolved : resolve odysseus (storedField (Rule.single "location" "contains" (.string "ΣΕΑΣ")).term.field) =
      some (.string "ΟΔΥΣΣΕΑΣ") := by
    decide +kernel
  have kept : Text.KeepsSigmas "ΟΔΥΣ".toList "ΣΕΑΣ".toList [] :=
    Text.lowerBefore_eq_lowerFrom_iff.1 (by decide +kernel)
  have found := contains_finds_occurrences compares .epoch rfl resolved (List.mem_singleton_self _) (by decide)
    fun _ => kept
  exact ⟨found.1 rfl, by decide +kernel⟩

end Rule

end CustomerSegments
