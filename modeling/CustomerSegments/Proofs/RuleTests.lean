import CustomerSegments.Proofs.CompiledShape
import CustomerSegments.Proofs.FieldPaths
import CustomerSegments.Proofs.RuleConditions

namespace CustomerSegments

/-- Documents in which the fields of all rules that are not left out have the same values pass together. -/
theorem holds_compile_congr {rules : List Rule} {now : Instant} {d d' : Json}
    (same : ∀ r ∈ rules, (r.condition? now).isSome →
      resolve d (storedField r.term.field) = resolve d' (storedField r.term.field)) :
    (compile rules now).predicate.holds d = (compile rules now).predicate.holds d' := by
  refine Predicate.holds_congr fun c member => ?_
  obtain ⟨r, inRules, kept⟩ := mem_conditions_compile.mp member
  have field := same r inRules (Option.isSome_iff_exists.mpr ⟨c, kept⟩)
  rw [← Rule.field_of_condition? kept] at field
  rw [Condition.holds, Condition.holds, field]

namespace Rule

/-- A rule that compares a field with its value by an operator: the rule is not left out, and it is on another field
than the customer's age. -/
structure Compares (rule : Rule) (operator : Operator) : Prop where
  named : rule.term.field ≠ ""
  notAge : rule.term.field ≠ customerAge
  token : Operator.ofToken? rule.term.operator = some operator

namespace Compares

variable {rule : Rule} {operator : Operator}

theorem condition? (compares : rule.Compares operator) (now : Instant) :
    rule.condition? now = some ⟨storedField rule.term.field, operator, .value (rule.term.operand operator)⟩ := by
  have known : rule.term.operator ≠ "" := by
    intro blank
    have token := compares.token
    rw [blank] at token
    cases token
  exact condition?_eq_some_iff.2 (Term.condition_eq_ok_iff.2
    ⟨compares.named, known, operator, compares.token, .inl ⟨compares.notAge, rfl⟩⟩)

/-- By itself such a rule tests the value of its field. -/
theorem holds_compile (compares : rule.Compares operator) {document v : Json} (now : Instant)
    (resolved : resolve document (storedField rule.term.field) = some v) :
    let c : Condition := ⟨storedField rule.term.field, operator, .value (rule.term.operand operator)⟩
    (compile [rule] now).predicate.holds document = (v.elements.any c.test ^^ c.isNegative) := by
  intro c
  rw [holds_compile_singleton, compares.condition? now, Option.any_some, c.holds_of_resolve resolved]

end Compares

end Rule

end CustomerSegments
