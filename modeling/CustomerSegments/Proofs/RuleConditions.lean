import CustomerSegments.Proofs.Clauses

namespace CustomerSegments

/-- An age is compared the other way round, as the time of creation. -/
def Operator.Turns (operator turned : Operator) : Prop :=
  operator = .greaterThan ∧ turned = .lessThan ∨ operator = .lessThan ∧ turned = .greaterThan

namespace Rule

namespace Term

variable {term : Term} {now : Instant} {operator : Operator} {c : Condition}

/-- An age makes a condition if it is compared by one of two operators with a number of days that leads
to an instant. -/
theorem ageCondition_eq_ok_iff : term.ageCondition now operator = .ok c ↔
    ∃ turned days cutoff, operator.Turns turned ∧ dayCount? term.value = some days ∧
      now.daysEarlier? days = some cutoff ∧ c = ⟨storedField customerAge, turned, .instant cutoff⟩ := by
  constructor
  · intro made
    unfold ageCondition at made
    cases counted : dayCount? term.value with
    | none =>
      rw [counted] at made
      cases operator <;> cases made
    | some days =>
      rw [counted] at made
      cases moved : now.daysEarlier? days with
      | none =>
        simp only [moved] at made
        cases operator <;> cases made
      | some cutoff =>
        simp only [moved] at made
        cases operator
        case greaterThan =>
          cases made
          exact ⟨.lessThan, days, cutoff, .inl ⟨rfl, rfl⟩, rfl, moved, rfl⟩
        case lessThan =>
          cases made
          exact ⟨.greaterThan, days, cutoff, .inr ⟨rfl, rfl⟩, rfl, moved, rfl⟩
        all_goals cases made
  · rintro ⟨turned, days, cutoff, ⟨rfl, rfl⟩ | ⟨rfl, rfl⟩, counted, moved, rfl⟩ <;>
      simp [ageCondition, counted, moved, bind, Except.bind]

/-- A rule makes a condition if it has a field and a known operator and, on the customer's age, if the age
makes one. -/
theorem condition_eq_ok_iff : term.condition now = .ok c ↔
    term.field ≠ "" ∧ term.operator ≠ "" ∧ ∃ operator, Operator.ofToken? term.operator = some operator ∧
      (term.field ≠ customerAge ∧ c = ⟨storedField term.field, operator, .value (term.operand operator)⟩ ∨
        term.field = customerAge ∧ term.ageCondition now operator = .ok c) := by
  unfold condition
  by_cases blank : term.field = "" ∨ term.operator = ""
  · rw [if_pos blank]
    refine ⟨nofun, fun ⟨field, token, _⟩ => ?_⟩
    rcases blank with blank | blank
    · exact absurd blank field
    · exact absurd blank token
  · rw [if_neg blank]
    obtain ⟨field, token⟩ := not_or.mp blank
    cases known : Operator.ofToken? term.operator with
    | none => simp
    | some operator =>
      by_cases age : term.field = customerAge
      · simp [age, token, customerAge]
      · simp [age, field, token, eq_comm]

end Term

variable {rule : Rule} {now : Instant} {c : Condition}

theorem condition?_eq_some_iff : rule.condition? now = some c ↔ rule.term.condition now = .ok c := by
  unfold condition?
  cases rule.term.condition now <;> simp [Except.toOption]

/-- A rule that is not left out compares its field with its value, or it compares the time of creation
with an instant. -/
theorem condition?_cases (kept : rule.condition? now = some c) :
    (∃ operator, c = ⟨storedField rule.term.field, operator, .value (rule.term.operand operator)⟩) ∨
      rule.term.field = customerAge ∧ ∃ (operator turned : Operator) (cutoff : Instant), operator.Turns turned ∧
        c = ⟨storedField customerAge, turned, .instant cutoff⟩ := by
  obtain ⟨_, _, operator, _, ⟨_, made⟩ | ⟨age, made⟩⟩ :=
    Term.condition_eq_ok_iff.mp (condition?_eq_some_iff.mp kept)
  · exact .inl ⟨operator, made⟩
  · obtain ⟨turned, _, cutoff, turns, _, _, made⟩ := Term.ageCondition_eq_ok_iff.mp made
    exact .inr ⟨age, operator, turned, cutoff, turns, made⟩

/-- A condition is on the stored field of its rule. -/
theorem field_of_condition? (kept : rule.condition? now = some c) : c.field = storedField rule.term.field := by
  rcases condition?_cases kept with ⟨operator, rfl⟩ | ⟨age, operator, turned, cutoff, _, rfl⟩
  · rfl
  · rw [age]

end Rule

end CustomerSegments
