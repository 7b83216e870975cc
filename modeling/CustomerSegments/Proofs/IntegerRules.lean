import CustomerSegments.Proofs.FieldPaths
import CustomerSegments.Proofs.NearestDoubles
import CustomerSegments.Proofs.RuleTests

namespace CustomerSegments

/-- The relation between two integers that an operator asks for; a search for a text asks for none. -/
def Operator.relation? : Operator → Option (Int → Int → Prop)
  | equals | isIn => some (· = ·)
  | notEquals => some (· ≠ ·)
  | greaterThan => some (· > ·)
  | lessThan => some (· < ·)
  | greaterThanEquals => some (· ≥ ·)
  | lessThanEquals => some (· ≤ ·)
  | contains | notContains => none

section

variable (a b : Integer)

theorem equalValues_integers :
    equalValues (.number (.integer a)) (.number (.integer b)) = decide (nearestInteger a.val = nearestInteger b.val) :=
  Integer.beq_toFloat a b

theorem ordered_integers (accept : Ordering → Bool) :
    (Operand.value (.number (.integer b))).ordered accept (.number (.integer a)) =
      accept (Ord.compare (nearestInteger a.val) (nearestInteger b.val)) := by
  change (compareFloats a.toFloat b.toFloat).any accept = _
  rw [Integer.compareFloats_eq, Option.any_some]

end

namespace Rule

variable {rule : Rule} {operator : Operator} {R : Int → Int → Prop} {document : Json} {a b : Integer}

/-- A rule with an integer as its value holds of an integer if the doubles nearest to the two are in its relation. -/
theorem Compares.holds_compile_integers (compares : rule.Compares operator) (now : Instant)
    (value : rule.value = .number (.integer b)) (relation : operator.relation? = some R)
    (resolved : resolve document (storedField rule.term.field) = some (.number (.integer a))) :
    (compile [rule] now).predicate.holds document = true ↔ R (nearestInteger a.val) (nearestInteger b.val) := by
  have term : rule.term.value = .number (.integer b) := value
  have alone (test : Json → Bool) : (Json.number (.integer a)).elements.any test = test (.number (.integer a)) :=
    Bool.or_false _
  rw [compares.holds_compile now resolved, alone]
  cases operator with
  | equals | notEquals =>
    cases relation
    simp [Condition.test, Condition.isNegative, Operand.equals, Term.operand, term, coerceNumber, equalValues_integers]
  | greaterThan | lessThan | greaterThanEquals | lessThanEquals =>
    cases relation
    simp [Condition.test, Condition.isNegative, Term.operand, term, coerceNumber, ordered_integers, compare_gt_iff_gt,
      compare_lt_iff_lt]
  | isIn =>
    cases relation
    simp [Condition.test, Condition.isNegative, Operand.lists, Term.operand, term, equalValues_integers]
  | contains | notContains => cases relation

/-- Two integers are related as the doubles nearest to them are, unless they become one double. -/
theorem relation_nearestInteger {m n : Int} (apart : nearestInteger m = nearestInteger n → m = n)
    (relation : operator.relation? = some R) : R (nearestInteger m) (nearestInteger n) ↔ R m n := by
  have level : nearestInteger m = nearestInteger n ↔ m = n := ⟨apart, congrArg nearestInteger⟩
  have below : nearestInteger m < nearestInteger n ↔ m < n := by
    refine ⟨fun less => lt_of_not_ge fun most => less.not_ge (nearestInteger_mono most), fun less => ?_⟩
    exact lt_of_le_of_ne (nearestInteger_mono less.le) (mt apart less.ne)
  have above : nearestInteger n < nearestInteger m ↔ n < m := by
    refine ⟨fun less => lt_of_not_ge fun most => less.not_ge (nearestInteger_mono most), fun less => ?_⟩
    exact lt_of_le_of_ne (nearestInteger_mono less.le) fun same => less.ne' (apart same.symm)
  cases operator with
  | equals | isIn => cases relation; exact level
  | notEquals => cases relation; exact not_congr level
  | greaterThan => cases relation; exact above
  | lessThan => cases relation; exact below
  | greaterThanEquals =>
    cases relation
    simpa only [ge_iff_le, not_lt] using not_congr below
  | lessThanEquals =>
    cases relation
    simpa only [not_lt] using not_congr above
  | contains | notContains => cases relation

/-- Integers of at most 53 bits are compared exactly, with any other integer. -/
theorem Compares.holds_compile_integers_of_short (compares : rule.Compares operator) (now : Instant)
    (value : rule.value = .number (.integer b)) (relation : operator.relation? = some R)
    (resolved : resolve document (storedField rule.term.field) = some (.number (.integer a)))
    (short : a.val.natAbs < 2 ^ 53 ∨ b.val.natAbs < 2 ^ 53) :
    (compile [rule] now).predicate.holds document = true ↔ R a.val b.val := by
  rw [compares.holds_compile_integers now value relation resolved]
  refine relation_nearestInteger (fun same => ?_) relation
  rcases short with short | short
  · exact eq_of_nearestInteger_eq short same
  · exact (eq_of_nearestInteger_eq short same.symm).symm

/-- Comparisons of integers are exact but for rounding. The rules that compare one integer, wherever a field has it,
with another one, by any operator that asks for a relation between numbers, hold exactly if the two are in that
relation, unless the two are different integers that are rounded to one double. -/
theorem integers_compared_exactly_iff (a b : Integer) :
    (∀ (rule : Rule) (operator : Operator) (R : Int → Int → Prop) (document : Json) (now : Instant),
        rule.Compares operator → operator.relation? = some R →
        resolve document (storedField rule.term.field) = some (.number (.integer a)) →
        rule.value = .number (.integer b) →
        ((compile [rule] now).predicate.holds document = true ↔ R a.val b.val)) ↔
      (nearestInteger a.val = nearestInteger b.val → a.val = b.val) := by
  constructor
  · intro exact same
    let rule := Rule.single "visitCount" "equals" (.number (.integer b))
    have bare : Text.trim "visitCount" = "visitCount" := by decide +kernel
    have token : Operator.ofToken? (Text.trim "equals") = some .equals := by decide +kernel
    have field : rule.term.field = "visitCount" := bare
    have compares : rule.Compares .equals := ⟨by simp [field], by simp [field, customerAge], token⟩
    have resolved : resolve (.mk [("visitCount", .number (.integer a))]) (storedField rule.term.field) =
        some (.number (.integer a)) := by
      rw [field]
      exact resolve_of_get? (by decide +kernel) rfl rfl
    have rounded := compares.holds_compile_integers .epoch rfl rfl resolved
    exact (exact rule .equals _ _ .epoch compares rfl resolved rfl).1 (rounded.2 same)
  · intro apart rule operator R document now compares relation resolved value
    rw [compares.holds_compile_integers now value relation resolved]
    exact relation_nearestInteger apart relation

theorem integers_compared_exactly_at_53_bits :
    let visits (n : Integer) : Json := .mk [("visitCount", .number (.integer n))]
    let least : Integer := ⟨9007199254740992, by decide⟩
    let next : Integer := ⟨9007199254740993, by decide⟩
    let more : Rule := .single " visit_count" ">" (.number (.integer ⟨9007199254740991, by decide⟩))
    let equal : Rule := .single "visit_count" "=" (.number (.integer least))
    (compile [more] .epoch).predicate.holds (visits next) = true ∧
      (compile [equal] .epoch).predicate.holds (visits next) = true ∧
      ¬ (nearestInteger next.val = nearestInteger least.val → next.val = least.val) := by
  intro visits least next more equal
  have exact : nearestInteger next.val = nearestInteger 9007199254740991 → next.val = 9007199254740991 := by
    decide +kernel
  have compares : more.Compares .greaterThan := ⟨by decide +kernel, by decide +kernel, by decide +kernel⟩
  have greater := (integers_compared_exactly_iff next ⟨9007199254740991, by decide⟩).2 exact more .greaterThan _
    (visits next) .epoch compares rfl (by decide +kernel) rfl
  exact ⟨greater.2 (by decide), by decide +kernel, by decide +kernel⟩

end Rule

end CustomerSegments
