import CustomerSegments.Proofs.AgeCutoffs
import CustomerSegments.Proofs.FieldPaths
import CustomerSegments.Proofs.Listings
import CustomerSegments.Proofs.RuleMeaning
import CustomerSegments.Proofs.StrictTimes

namespace CustomerSegments

namespace Customer

variable {c : Customer} {cutoff now : Instant} {rule : Rule}

theorem resolve_createdAt (c : Customer) : resolve c.toJson "createdAt" = some (.string c.createdAt.text) := by
  have found : c.toJson.get? "createdAt" = some (.string c.createdAt.text) := by
    rw [get?_toJson]
    rfl
  exact resolve_of_get? (by decide +kernel) found rfl

/-- An ordering with an instant sees no time of creation whose year needs a sign. -/
theorem holds_createdAt (c : Customer) (operator : Operator) {accept : Ordering → Bool}
    (ordering : (⟨"createdAt", operator, .instant cutoff⟩ : Condition).test = (Operand.instant cutoff).ordered accept)
    (positive : (⟨"createdAt", operator, .instant cutoff⟩ : Condition).isNegative = false) :
    (⟨"createdAt", operator, .instant cutoff⟩ : Condition).holds c.toJson = true ↔
      c.createdAt.PlainYear ∧ accept (c.createdAt.compare cutoff) = true := by
  rw [Condition.holds_ordered ⟨"createdAt", operator, .instant cutoff⟩ c.resolve_createdAt ordering positive,
    compareTo, instantOf?, Instant.ofStrict?_text]
  split <;> simp [*]

theorem holds_created_before :
    (⟨"createdAt", .lessThan, .instant cutoff⟩ : Condition).holds c.toJson = true ↔
      c.createdAt.PlainYear ∧ c.createdAt.isBefore cutoff = true := by
  rw [c.holds_createdAt .lessThan rfl rfl, beq_iff_eq, Instant.compare_eq_lt_iff]

theorem holds_created_after :
    (⟨"createdAt", .greaterThan, .instant cutoff⟩ : Condition).holds c.toJson = true ↔
      c.createdAt.PlainYear ∧ cutoff.isBefore c.createdAt = true := by
  rw [c.holds_createdAt .greaterThan rfl rfl, beq_iff_eq, Instant.compare_eq_gt_iff]

/-- A rule on the age means what it says for the customers whose year of creation needs no sign. If the rule is not left
out, then its value names a number of days; older customers are the ones created before the instant that many
days ago, and younger ones those created after it, to the nanosecond. A customer of any other year is neither:
the text of such a year is not one that a test reads. -/
theorem holds_compile_age (c : Customer) (onAge : rule.term.field = customerAge)
    (kept : (rule.condition? now).isSome = true) :
    ∃ days cutoff, rule.value.NamesDays days ∧ now.daysEarlier? days = some cutoff ∧
      (now.nano < 1000000000 → cutoff.IsDaysBefore days now) ∧
      (Operator.ofToken? rule.term.operator = some .greaterThan →
        ((compile [rule] now).predicate.holds c.toJson = true ↔
          c.createdAt.PlainYear ∧ c.createdAt.isBefore cutoff = true)) ∧
      (Operator.ofToken? rule.term.operator = some .lessThan →
        ((compile [rule] now).predicate.holds c.toJson = true ↔
          c.createdAt.PlainYear ∧ cutoff.isBefore c.createdAt = true)) := by
  obtain ⟨condition, made⟩ := Option.isSome_iff_exists.1 kept
  obtain ⟨-, -, operator, token, ⟨elsewhere, -⟩ | ⟨-, aged⟩⟩ :=
    Rule.Term.condition_eq_ok_iff.1 (Rule.condition?_eq_some_iff.1 made)
  · exact absurd onAge elsewhere
  obtain ⟨turned, days, cutoff, turns, counted, moved, rfl⟩ := Rule.Term.ageCondition_eq_ok_iff.1 aged
  have meaning : (compile [rule] now).predicate.holds c.toJson =
      (⟨"createdAt", turned, .instant cutoff⟩ : Condition).holds c.toJson := by
    rw [holds_compile_singleton, made]
    rfl
  refine ⟨days, cutoff, dayCount?_eq_some_iff.1 counted, moved,
    fun plain => (Instant.daysEarlier?_eq_some_iff plain).1 moved, fun greater => ?_, fun less => ?_⟩
  · obtain ⟨-, rfl⟩ | ⟨rfl, -⟩ := turns
    · rw [meaning, holds_created_before]
    · rw [token] at greater
      cases greater
  · obtain ⟨rfl, -⟩ | ⟨-, rfl⟩ := turns
    · rw [token] at less
      cases less
    · rw [meaning, holds_created_after]

/-- A customer of whom only the time of creation is of interest. -/
def createdOn (t : Instant) : Customer :=
  ⟨default, .named "Ada", t, t⟩

theorem holds_compile_age_to_the_nanosecond :
    let older := Rule.single "customer_age" ">" (.string " 30 ")
    let younger := Rule.single "customer_age" "lessThan" (.string "30")
    let now : Instant := ⟨2592000, 1, by decide, by decide, by decide, by decide⟩
    let edge : Instant := ⟨0, 1, by decide, by decide, by decide, by decide⟩
    let far : Instant := ⟨253402300800, 0, by decide, by decide, by decide, by decide⟩
    (older.term.field = customerAge ∧ (older.condition? now).isSome = true) ∧
      (younger.term.field = customerAge ∧ (younger.condition? now).isSome = true) ∧
      ((compile [older] now).predicate.holds (createdOn .epoch).toJson = true) ∧
      ((compile [older] now).predicate.holds (createdOn edge).toJson = false) ∧
      edge.isBefore far = true ∧ (compile [younger] now).predicate.holds (createdOn far).toJson = false := by
  intro older younger now edge far
  have olderOnAge : older.term.field = customerAge := by decide +kernel
  have olderKept : (older.condition? now).isSome = true := by decide +kernel
  have youngerOnAge : younger.term.field = customerAge := by decide +kernel
  have youngerKept : (younger.condition? now).isSome = true := by decide +kernel
  have counted : dayCount? older.value = some 30 := by decide +kernel
  have moved : now.daysEarlier? 30 = some edge := by decide +kernel
  have cutoffs (c : Customer) :
      (compile [older] now).predicate.holds c.toJson = true ↔ c.createdAt.PlainYear ∧ c.createdAt.isBefore edge := by
    obtain ⟨days, cutoff, named, reached, -, meaning, -⟩ := holds_compile_age c olderOnAge olderKept
    cases (dayCount?_eq_some_iff.2 named).symm.trans counted
    cases reached.symm.trans moved
    exact meaning (by decide +kernel)
  obtain ⟨_, _, -, -, -, -, meaning⟩ := holds_compile_age (createdOn far) youngerOnAge youngerKept
  have signed : ¬ far.PlainYear := by decide
  exact ⟨⟨olderOnAge, olderKept⟩, ⟨youngerOnAge, youngerKept⟩, (cutoffs _).2 ⟨by decide, by decide⟩,
    Bool.eq_false_iff.2 fun holds => absurd ((cutoffs _).1 holds).2 (by decide), by decide,
    Bool.eq_false_iff.2 fun holds => signed ((meaning (by decide +kernel)).1 holds).1⟩

/-- The reader of records knows years with a sign, the tests do not. -/
example : (Instant.ofText? "+10000-01-01T00:00:00Z").map (·.second) = some 253402300800 ∧
    Instant.ofStrict? "+10000-01-01T00:00:00Z" = none := by
  decide +kernel

end Customer

end CustomerSegments
