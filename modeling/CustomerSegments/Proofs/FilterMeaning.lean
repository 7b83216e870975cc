import CustomerSegments.Proofs.CompiledShape
import CustomerSegments.Proofs.EqualValues
import CustomerSegments.Proofs.FieldPaths
import CustomerSegments.Proofs.PatternText
import CustomerSegments.Proofs.RuleConditions
import CustomerSegments.Proofs.TimeText

namespace CustomerSegments

namespace Json

variable {k l : String} {v w : Json}

theorem of_single_same (same : (mk [(k, v)]).same (mk [(l, w)]) = true) : k = l ∧ v.same w = true := by
  obtain ⟨both, _⟩ := Bool.and_eq_true_iff.1 same
  obtain ⟨name, value⟩ := Bool.and_eq_true_iff.1 both
  exact ⟨beq_iff_eq.1 name, value⟩

theorem eq_of_same_string {s : String} (same : v.same (string s) = true) : v = string s := by
  cases v with
  | string t => rw [beq_iff_eq.1 (show (t == s) = true from same)]
  | _ => cases same

theorem eq_of_same_single {s : String} (same : v.same (mk [(k, string s)]) = true) : v = mk [(k, string s)] := by
  cases v with
  | object ms =>
    match ms with
    | [] => cases same
    | [(l, w)] =>
      obtain ⟨rfl, value⟩ := of_single_same (k := l) (v := w) same
      rw [eq_of_same_string value]
      rfl
    | m :: n :: rest => cases (Bool.and_false _).symm.trans same
  | _ => cases same

theorem same_single_comm (k s : String) (v : Json) :
    (mk [(k, string s)]).same v = v.same (mk [(k, string s)]) := by
  have value (w : Json) : (string s).same w = w.same (string s) := by
    cases w <;> first | rfl | exact Bool.beq_comm
  cases v with
  | object ms =>
    match ms with
    | [] => rfl
    | [(l, w)] =>
      change (k == l && (string s).same w && true) = (l == k && w.same (string s) && true)
      rw [value, Bool.beq_comm]
    | m :: n :: rest => exact (Bool.and_false _).trans (Bool.and_false _).symm
  | _ => rfl

end Json

namespace Instant

/-- An instant as a filter writes it. -/
def stamp (t : Instant) : Json :=
  .mk [("$date", .string t.filterText)]

theorem eq_of_stamps_same {t u : Instant} (same : t.stamp.same u.stamp = true) : t = u := by
  have text := Json.eq_of_same_string (Json.of_single_same same).2
  exact filterText_injective (Json.string.inj text)

end Instant

/-- The first name in the test that an operator makes. -/
def Operator.mark : Operator → String
  | equals => "$eq"
  | notEquals => "$ne"
  | greaterThan => "$gt"
  | lessThan => "$lt"
  | greaterThanEquals => "$gte"
  | lessThanEquals => "$lte"
  | contains => "$options"
  | notContains => "$not"
  | isIn => "$in"

theorem Operator.mark_injective : Function.Injective mark := by
  intro a b same
  cases a <;> cases b <;> first | rfl | exact absurd same (by decide)

theorem patternFilter_string (s : String) : patternFilter (.string s) =
    .object [("$options", .string "i"), ("$regex", .string (String.ofList (escapePattern s.toList)))] := rfl

theorem eq_of_patterns_same {s s' : String} (same : (patternFilter (.string s)).same (patternFilter (.string s')) = true) :
    s = s' := by
  rw [patternFilter_string, patternFilter_string] at same
  simp only [Json.same, Json.sameMembers, Bool.and_true, beq_self_eq_true, Bool.true_and, beq_iff_eq] at same
  exact String.toList_injective (escapePattern_injective (String.ofList_injective same))

namespace Condition

variable {c c' : Condition}

/-- A search is for a text. -/
def SeeksText (c : Condition) : Prop :=
  c.operator = .contains ∨ c.operator = .notContains → ∃ needle, c.operand = .value (.string needle)

/-- A condition compares with the value that stands for the instant of another one in filters, and
agrees with it in all else. -/
def PosesAs (c c' : Condition) : Prop :=
  ∃ t, c'.operand = .instant t ∧ c = { c' with operand := .value t.stamp }

theorem exists_filterTest_eq (c : Condition) : ∃ value rest, c.filterTest = .object ((c.operator.mark, value) :: rest) := by
  obtain ⟨field, operator, operand⟩ := c
  cases operator <;> exact ⟨_, _, rfl⟩

theorem operator_eq_of_same (same : c.filterTest.same c'.filterTest = true) : c.operator = c'.operator := by
  obtain ⟨value, rest, test⟩ := c.exists_filterTest_eq
  obtain ⟨value', rest', test'⟩ := c'.exists_filterTest_eq
  rw [test, test'] at same
  obtain ⟨both, _⟩ := Bool.and_eq_true_iff.1 same
  exact Operator.mark_injective (beq_iff_eq.1 (Bool.and_eq_true_iff.1 both).1)

/-- Equal tests compare with values that a filter writes alike. -/
theorem filterOperand_same (seeks : c.SeeksText) (seeks' : c'.SeeksText)
    (same : c.filterTest.same c'.filterTest = true) : c.filterOperand.same c'.filterOperand = true := by
  have operator := operator_eq_of_same same
  obtain ⟨field, op, operand⟩ := c
  obtain ⟨field', op', operand'⟩ := c'
  cases operator
  -- a pattern is that of one text; the other operators write their operand as it is
  have sought (search : op = .contains ∨ op = .notContains)
      (patterns : (patternFilter (filterOperand ⟨field, op, operand⟩)).same
        (patternFilter (filterOperand ⟨field', op, operand'⟩)) = true) :
      (filterOperand ⟨field, op, operand⟩).same (filterOperand ⟨field', op, operand'⟩) = true := by
    obtain ⟨s, rfl⟩ : ∃ s, operand = .value (.string s) := seeks search
    obtain ⟨s', rfl⟩ : ∃ s, operand' = .value (.string s) := seeks' search
    exact beq_iff_eq.2 (eq_of_patterns_same patterns)
  cases op with
  | contains => exact sought (.inl rfl) same
  | notContains => exact sought (.inr rfl) (Json.of_single_same same).2
  | _ => exact (Json.of_single_same same).2

/-- Conditions that a filter writes alike differ in equal operands only, if neither poses as the other. -/
theorem parts_of_filters_same (seeks : c.SeeksText) (seeks' : c'.SeeksText) (apart : ¬ c.PosesAs c' ∧ ¬ c'.PosesAs c)
    (same : c.filter.same c'.filter = true) :
    c.field = c'.field ∧ c.operator = c'.operator ∧ c.operand.Same c'.operand := by
  obtain ⟨field, tests⟩ := Json.of_single_same same
  have operator := operator_eq_of_same tests
  have written := filterOperand_same seeks seeks' tests
  refine ⟨field, operator, ?_⟩
  obtain ⟨f, op, operand⟩ := c
  obtain ⟨f', op', operand'⟩ := c'
  cases field
  cases operator
  cases operand with
  | value v =>
    cases operand' with
    | value w => exact written
    | instant u =>
      -- only its stamp is written like an instant, and a value that is the stamp poses
      have stamped : v = u.stamp := Json.eq_of_same_single written
      exact absurd ⟨u, rfl, by rw [stamped]⟩ apart.1
  | instant t =>
    cases operand' with
    | value w =>
      have stamped : w = t.stamp := Json.eq_of_same_single ((Json.same_single_comm ..).symm.trans written)
      exact absurd ⟨t, rfl, by rw [stamped]⟩ apart.2
    | instant u => exact Instant.eq_of_stamps_same written

theorem filter_eq_of_posesAs (poses : c.PosesAs c') : c.filter = c'.filter := by
  obtain ⟨t, operand, rfl⟩ := poses
  simp only [filter, filterTest, filterOperand, operand, Instant.stamp]

/-- A condition whose test nothing passes holds of nobody, unless it denies the test. -/
theorem holds_of_test_eq_false (positive : c.isNegative = false) (fails : ∀ a, c.test a = false) (document : Json) :
    c.holds document = false := by
  cases resolved : resolve document c.field with
  | none =>
    rw [holds, resolved, positive]
    rfl
  | some v =>
    have missed : v.elements.any c.test = false := by
      rw [List.any_eq_false]
      intro a _
      rw [fails a]
      exact Bool.false_ne_true
    rw [c.holds_of_resolve resolved, positive, missed]
    rfl

/-- Nothing comes before or after the value that stands for an instant in filters. -/
theorem holds_of_posesAs (poses : c.PosesAs c') (ordering : c'.operator = .lessThan ∨ c'.operator = .greaterThan)
    (document : Json) : c.holds document = false := by
  obtain ⟨t, _, rfl⟩ := poses
  have unordered (accept : Ordering → Bool) (a : Json) : (Operand.value t.stamp).ordered accept a = false := by
    cases a <;> rfl
  rcases ordering with operator | operator <;> refine holds_of_test_eq_false ?_ (fun a => ?_) document
  · rw [isNegative, operator]
  · rw [test, operator]
    exact unordered _ a
  · rw [isNegative, operator]
  · rw [test, operator]
    exact unordered _ a

theorem list_filter_not_same (c : Condition) (k : String) (items : List Json) :
    c.filter.same (.mk [(k, .array items)]) ≠ true ∧ (Json.mk [(k, .array items)]).same c.filter ≠ true := by
  obtain ⟨value, rest, test⟩ := c.exists_filterTest_eq
  rw [filter, test]
  constructor <;> exact fun same => nomatch (Json.of_single_same same).2

end Condition

namespace Predicate

variable {d : Json}

/-- No condition of a predicate poses as one of another predicate. -/
def Apart (p q : Predicate) : Prop :=
  ∀ c ∈ p.conditions, ∀ c' ∈ q.conditions, ¬ c.PosesAs c' ∧ ¬ c'.PosesAs c

mutual

/-- Predicates that a filter writes alike hold alike if the conditions that it writes alike do. -/
theorem holds_of_filters_same : (p : Predicate) → {q : Predicate} →
    (∀ c ∈ p.conditions, ∀ c' ∈ q.conditions, c.filter.same c'.filter = true → c.holds d = c'.holds d) →
    p.filter.same q.filter = true → p.holds d = q.holds d
  -- each connective has a name of its own, with a list behind it, where a condition has an object
  | nothing, q, _, same => by
    cases q with
    | nothing => rfl
    | condition c => exact absurd same (c.list_filter_not_same _ _).2
    | all qs | any qs => exact absurd (Json.of_single_same same).1 (by decide)
  | condition c, q, alike, same => by
    cases q with
    | condition c' => exact alike c (List.mem_singleton_self c) c' (List.mem_singleton_self c') same
    | nothing | all qs | any qs => exact absurd same (c.list_filter_not_same _ _).1
  | all ps, q, alike, same => by
    cases q with
    | all qs => exact (partsHold_of_filters_same ps alike (Json.of_single_same same).2).1
    | condition c => exact absurd same (c.list_filter_not_same _ _).2
    | nothing | any qs => exact absurd (Json.of_single_same same).1 (by decide)
  | any ps, q, alike, same => by
    cases q with
    | any qs => exact (partsHold_of_filters_same ps alike (Json.of_single_same same).2).2
    | condition c => exact absurd same (c.list_filter_not_same _ _).2
    | nothing | all qs => exact absurd (Json.of_single_same same).1 (by decide)

theorem partsHold_of_filters_same : (ps : List Predicate) → {qs : List Predicate} →
    (∀ c ∈ conditionsOfParts ps, ∀ c' ∈ conditionsOfParts qs, c.filter.same c'.filter = true → c.holds d = c'.holds d) →
    Json.sameItems (filters ps) (filters qs) = true → allHold d ps = allHold d qs ∧ anyHolds d ps = anyHolds d qs
  | [], qs, _, same => by
    cases qs with
    | nil => exact ⟨rfl, rfl⟩
    | cons q qs => cases same
  | p :: ps, qs, alike, same => by
    cases qs with
    | nil => cases same
    | cons q qs =>
      obtain ⟨first, rest⟩ := Bool.and_eq_true_iff.1 same
      have head := holds_of_filters_same p
        (fun c member c' member' => alike c (List.mem_append_left _ member) c' (List.mem_append_left _ member')) first
      have tail := partsHold_of_filters_same ps
        (fun c member c' member' => alike c (List.mem_append_right _ member) c' (List.mem_append_right _ member')) rest
      simp only [allHold, anyHolds, head, tail, and_self]

end

end Predicate

namespace Rule

variable {rule : Rule} {now : Instant} {c : Condition}

theorem seeksText_of_condition? (kept : rule.condition? now = some c) : c.SeeksText := by
  rcases condition?_cases kept with ⟨operator, rfl⟩ | ⟨_, operator, turned, cutoff, turns, rfl⟩
  · rintro (search | search) <;> cases search <;> exact ⟨_, rfl⟩
  · rintro (search | search) <;> cases search <;> rcases turns with ⟨_, other⟩ | ⟨_, other⟩ <;> cases other

/-- Every rule on the customer's age has a double, which has the same filter and lets nobody pass: the rule
that compares the time of creation with what stands for the instant in filters. -/
theorem exists_double (age : rule.term.field = customerAge) (kept : rule.condition? now = some c) :
    ∃ (double : Rule) (c' : Condition), (∀ now', double.condition? now' = some c') ∧ c'.filter = c.filter ∧
      ∀ document, c'.holds document = false := by
  obtain ⟨_, _, operator, _, ⟨other, _⟩ | ⟨_, made⟩⟩ := Term.condition_eq_ok_iff.mp (condition?_eq_some_iff.mp kept)
  · exact absurd age other
  obtain ⟨turned, _, cutoff, turns, _, _, rfl⟩ := Term.ageCondition_eq_ok_iff.mp made
  obtain ⟨word, trimmed, written, known, ordering⟩ : ∃ word, Text.trim word = word ∧ word ≠ "" ∧
      Operator.ofToken? word = some turned ∧ (turned = .lessThan ∨ turned = .greaterThan) := by
    rcases turns with ⟨_, rfl⟩ | ⟨_, rfl⟩
    · exact ⟨"lessThan", by decide +kernel, by decide, by decide +kernel, .inl rfl⟩
    · exact ⟨"greaterThan", by decide +kernel, by decide, by decide +kernel, .inr rfl⟩
  have poses : Condition.PosesAs ⟨"createdAt", turned, .value cutoff.stamp⟩ ⟨"createdAt", turned, .instant cutoff⟩ :=
    ⟨cutoff, rfl, rfl⟩
  refine ⟨.single "createdAt" word cutoff.stamp, ⟨"createdAt", turned, .value cutoff.stamp⟩, fun now' => ?_,
    Condition.filter_eq_of_posesAs poses, Condition.holds_of_posesAs poses ordering⟩
  have term : (Rule.single "createdAt" word cutoff.stamp).term = ⟨"createdAt", word, cutoff.stamp⟩ := by
    have named : Text.trim "createdAt" = "createdAt" := by decide +kernel
    simp only [Rule.term, single, named, trimmed]
  have operand : Term.operand ⟨"createdAt", word, cutoff.stamp⟩ turned = cutoff.stamp := by
    rcases ordering with rfl | rfl <;> rfl
  rw [condition?_eq_some_iff, term, Term.condition_eq_ok_iff]
  have other : "createdAt" ≠ "" ∧ "createdAt" ≠ customerAge := by decide
  exact ⟨other.1, written, turned, known, .inl ⟨other.2, by rw [operand]; rfl⟩⟩

/-- A filter does not tell customers that are more than thirty days old from nobody. -/
example :
    let document : Json := .mk [("createdAt", .string "1969-01-01T00:00:00Z")]
    let old : Rule := .single "customer_age" "greaterThan" (.string "30")
    let double : Rule := .single "createdAt" "lessThan" (.mk [("$date", .string "1969-12-02T00:00:00+00:00")])
    (compile [double] .epoch).predicate.filter = (compile [old] .epoch).predicate.filter ∧
      (compile [double] .epoch).predicate.holds document = false ∧ (compile [old] .epoch).predicate.holds document = true := by
  decide +kernel

end Rule

/-- The filter tells compiled rule lists apart: two lists, compiled at any times, whose filters are equal let the
same documents pass, unless a condition of one of them poses as a condition on the customer's age of the other. -/
theorem holds_compile_of_filters_same {rules rules' : List Rule} {now now' : Instant}
    (apart : (compile rules now).predicate.Apart (compile rules' now').predicate)
    (same : (compile rules now).predicate.filter.same (compile rules' now').predicate.filter = true) (document : Json) :
    (compile rules now).predicate.holds document = (compile rules' now').predicate.holds document := by
  refine Predicate.holds_of_filters_same _ (fun c member c' member' alike => ?_) same
  obtain ⟨r, _, kept⟩ := mem_conditions_compile.mp member
  obtain ⟨r', _, kept'⟩ := mem_conditions_compile.mp member'
  obtain ⟨field, operator, operands⟩ := Condition.parts_of_filters_same (Rule.seeksText_of_condition? kept)
    (Rule.seeksText_of_condition? kept') (apart c member c' member') alike
  exact Condition.holds_congr field operator operands document

/-- Customers that spent more than an amount. -/
def spenders (amount : String) : List Rule :=
  [.single "total_spend" "greaterThan" (.string amount)]

theorem holds_compile_of_filters_same_zeros :
    let positive := (compile (spenders "0.0") .epoch).predicate
    let negative := (compile (spenders "-0.0") .epoch).predicate
    let document : Json := .mk [("totalSpend", .number (.integer ⟨5, by decide⟩))]
    positive.conditions ≠ negative.conditions ∧ positive.Apart negative ∧ positive.filter.same negative.filter = true ∧
      positive.holds document = true ∧ positive.holds document = negative.holds document := by
  intro positive negative document
  have first : positive.conditions = [⟨"totalSpend", .greaterThan, .value (coerceNumber (.string "0.0"))⟩] := by
    decide +kernel
  have second : negative.conditions = [⟨"totalSpend", .greaterThan, .value (coerceNumber (.string "-0.0"))⟩] := by
    decide +kernel
  have apart : positive.Apart negative := by
    intro c member c' member'
    rw [first, List.mem_singleton] at member
    rw [second, List.mem_singleton] at member'
    subst member member'
    constructor <;> (rintro ⟨_, instant, _⟩; cases instant)
  have same : positive.filter.same negative.filter = true := by decide +kernel
  exact ⟨by decide +kernel, apart, same, by decide +kernel, holds_compile_of_filters_same apart same document⟩

end CustomerSegments
