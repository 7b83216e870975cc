import CustomerSegments.Proofs.FieldPaths
import CustomerSegments.Proofs.Listings
import Mathlib.Data.String.Basic

namespace CustomerSegments

/-- Two texts that name one instant. -/
def SameInstant (s t : String) : Prop :=
  (Instant.ofStrict? s).isSome = true ∧ Instant.ofStrict? s = Instant.ofStrict? t

instance (s t : String) : Decidable (SameInstant s t) :=
  inferInstanceAs (Decidable (_ ∧ _))

/-- Two texts that name instants, the first of which does not come before the second, and between them, as texts,
one that names no instant. -/
structure Inverted (low mid high : String) : Prop where
  unnamed : Instant.ofStrict? mid = none
  above : low < mid
  below : mid < high
  late : ∃ x y, Instant.ofStrict? low = some x ∧ Instant.ofStrict? high = some y ∧ x.isBefore y = false

section

variable {s t u : String} {x y : Instant}

theorem named_or_unnamed (s t : String) :
    (∃ x y, Instant.ofStrict? s = some x ∧ Instant.ofStrict? t = some y) ∨
      (Instant.ofStrict? s = none ∨ Instant.ofStrict? t = none) := by
  cases Instant.ofStrict? s <;> cases Instant.ofStrict? t <;> simp

theorem compareStrings_of_some (first : Instant.ofStrict? s = some x) (second : Instant.ofStrict? t = some y) :
    compareStrings s t = x.compare y := by
  rw [compareStrings, first, second]

theorem compareStrings_of_none (unnamed : Instant.ofStrict? s = none ∨ Instant.ofStrict? t = none) :
    compareStrings s t = Ord.compare s t := by
  unfold compareStrings
  split
  · next first second => simp [first, second] at unnamed
  · rfl

theorem compareStrings_lt_of_some (first : Instant.ofStrict? s = some x) (second : Instant.ofStrict? t = some y) :
    compareStrings s t = .lt ↔ x.isBefore y = true := by
  rw [compareStrings_of_some first second, Instant.compare_eq_lt_iff]

theorem compareStrings_lt_of_none (unnamed : Instant.ofStrict? s = none ∨ Instant.ofStrict? t = none) :
    compareStrings s t = .lt ↔ s < t := by
  rw [compareStrings_of_none unnamed]
  exact compare_lt_iff_lt

instance : Std.OrientedCmp compareStrings where
  eq_swap {s t} := by
    obtain ⟨x, y, first, second⟩ | unnamed := named_or_unnamed s t
    · rw [compareStrings_of_some first second, compareStrings_of_some second first]
      exact Std.OrientedCmp.eq_swap
    · rw [compareStrings_of_none unnamed, compareStrings_of_none unnamed.symm]
      exact Std.OrientedCmp.eq_swap

/-- Two strings are level if they are the same or name one instant. -/
theorem compareStrings_eq_eq_iff : compareStrings s t = .eq ↔ s = t ∨ SameInstant s t := by
  unfold SameInstant
  obtain ⟨x, y, first, second⟩ | unnamed := named_or_unnamed s t
  · have level : s = t → x = y := fun same => Option.some.inj (by rw [← first, ← second, same])
    rw [compareStrings_of_some first second, Std.LawfulEqCmp.compare_eq_iff_eq, first, second]
    simpa using level
  · have unlike : ¬ ((Instant.ofStrict? s).isSome = true ∧ Instant.ofStrict? s = Instant.ofStrict? t) := by
      rintro ⟨named, same⟩
      obtain none | none := unnamed <;> simp [none, same] at named
    rw [compareStrings_of_none unnamed, Std.LawfulEqCmp.compare_eq_iff_eq, or_iff_left unlike]

/-- What a text that names no instant separates is in the order of texts, or it is inverted. -/
theorem compareStrings_lt_of_between (unnamed : Instant.ofStrict? t = none) (above : s < t) (below : t < u)
    (straight : ¬ Inverted s t u) : compareStrings s u = .lt := by
  obtain ⟨x, y, first, second⟩ | apart := named_or_unnamed s u
  · rw [compareStrings_lt_of_some first second, ← Bool.not_eq_false]
    exact fun late => straight ⟨unnamed, above, below, x, y, first, second, late⟩
  · exact (compareStrings_lt_of_none apart).2 (above.trans below)

/-- An ascent of two steps is one ascent, unless one of the three texts names no instant and stands between the others
as texts, which name instants in another order. -/
theorem compareStrings_trans_iff (first : compareStrings s t = .lt) (second : compareStrings t u = .lt) :
    compareStrings s u = .lt ↔ ¬ (Inverted s t u ∨ Inverted t u s ∨ Inverted u s t) := by
  have distinct : s ≠ u := fun same => Std.OrientedCmp.not_lt_of_lt first (by rw [same]; exact second)
  constructor
  · rintro ascent (inverted | inverted | inverted)
    · obtain ⟨x, y, low, high, late⟩ := inverted.late
      rw [compareStrings_lt_of_some low high, late] at ascent
      cases ascent
    · exact lt_asymm inverted.below ((compareStrings_lt_of_none (.inr inverted.unnamed)).1 ascent)
    · exact lt_asymm inverted.above ((compareStrings_lt_of_none (.inl inverted.unnamed)).1 ascent)
  · intro straight
    simp only [not_or] at straight
    obtain ⟨middle, last, outer⟩ := straight
    cases hs : Instant.ofStrict? s with
    | none =>
      -- A descent from `s` to `u` would put `s` between `u` and `t`, against the second step.
      have below := (compareStrings_lt_of_none (.inl hs)).1 first
      refine (compareStrings_lt_of_none (.inl hs)).2 (lt_of_not_ge fun descent => ?_)
      exact Std.OrientedCmp.not_lt_of_lt second
        (compareStrings_lt_of_between hs (lt_of_le_of_ne descent distinct.symm) below outer)
    | some x =>
      cases hu : Instant.ofStrict? u with
      | none =>
        have above := (compareStrings_lt_of_none (.inr hu)).1 second
        refine (compareStrings_lt_of_none (.inr hu)).2 (lt_of_not_ge fun descent => ?_)
        exact Std.OrientedCmp.not_lt_of_lt first
          (compareStrings_lt_of_between hu above (lt_of_le_of_ne descent distinct.symm) last)
      | some z =>
        cases ht : Instant.ofStrict? t with
        | none =>
          exact compareStrings_lt_of_between ht ((compareStrings_lt_of_none (.inr ht)).1 first)
            ((compareStrings_lt_of_none (.inl ht)).1 second) middle
        | some y =>
          rw [compareStrings_of_some hs ht] at first
          rw [compareStrings_of_some ht hu] at second
          rw [compareStrings_of_some hs hu]
          exact Std.TransCmp.lt_trans first second

end

namespace Condition

variable {document : Json} {field s : String}

/-- The comparisons of a string are coherent but for two things. Different names of one instant are neither less nor
equal nor greater, but at most and at least each other; otherwise one of the three holds, and the other two
comparisons allow for equality. An ascent of two steps is one ascent, unless one of the three texts names no instant
and stands between the others as texts, which name instants in another order. -/
theorem string_comparisons_coherent (resolved : resolve document field = some (.string s)) :
    let holds (operator : Operator) (t : String) := (⟨field, operator, .value (.string t)⟩ : Condition).holds document
    (∀ t, [Operator.lessThan, .equals, .greaterThan].countP (holds · t) = if s ≠ t ∧ SameInstant s t then 0 else 1) ∧
      (∀ t, holds .lessThanEquals t = true ↔
        holds .lessThan t = true ∨ holds .equals t = true ∨ SameInstant s t) ∧
      (∀ t, holds .greaterThanEquals t = true ↔
        holds .greaterThan t = true ∨ holds .equals t = true ∨ SameInstant s t) ∧
      ∀ t₁ t₂, holds .lessThan t₁ = true → compareTo (.string t₁) (.value (.string t₂)) = some .lt →
        (holds .lessThan t₂ = true ↔ ¬ (Inverted s t₁ t₂ ∨ Inverted t₁ t₂ s ∨ Inverted t₂ s t₁)) := by
  intro holds
  have ordered (operator : Operator) (t : String) {accept : Ordering → Bool}
      (ordering : (⟨field, operator, .value (.string t)⟩ : Condition).test = (Operand.value (.string t)).ordered accept)
      (positive : (⟨field, operator, .value (.string t)⟩ : Condition).isNegative = false) :
      holds operator t = accept (compareStrings s t) :=
    holds_ordered ⟨field, operator, .value (.string t)⟩ resolved ordering positive
  have less (t : String) : holds .lessThan t = (compareStrings s t == .lt) := ordered .lessThan t rfl rfl
  have greater (t : String) : holds .greaterThan t = (compareStrings s t == .gt) := ordered .greaterThan t rfl rfl
  have atMost (t : String) : holds .lessThanEquals t = (compareStrings s t != .gt) := ordered .lessThanEquals t rfl rfl
  have atLeast (t : String) : holds .greaterThanEquals t = (compareStrings s t != .lt) :=
    ordered .greaterThanEquals t rfl rfl
  have equal (t : String) : holds .equals t = (s == t) := by
    refine (holds_of_string ⟨field, .equals, .value (.string t)⟩ resolved).trans ?_
    simp only [test, isNegative, Bool.xor_false, Operand.equals, equalValues, Json.same]
  refine ⟨fun t => ?_, fun t => ?_, fun t => ?_, fun t₁ t₂ first second => ?_⟩
  · have level : compareStrings s t = .eq ↔ s = t ∨ SameInstant s t := compareStrings_eq_eq_iff
    simp only [List.countP_cons, List.countP_nil, less, equal, greater]
    by_cases same : s = t
    · rw [level.2 (.inl same)]
      simp [same]
    · cases order : compareStrings s t <;> simp_all
  · have level : compareStrings s t = .eq ↔ s = t ∨ SameInstant s t := compareStrings_eq_eq_iff
    rw [atMost, less, equal]
    cases order : compareStrings s t <;> simp_all
  · have level : compareStrings s t = .eq ↔ s = t ∨ SameInstant s t := compareStrings_eq_eq_iff
    rw [atLeast, greater, equal]
    cases order : compareStrings s t <;> simp_all
  · rw [less, beq_iff_eq] at first ⊢
    exact compareStrings_trans_iff first (Option.some.inj second)

theorem string_comparisons_coherent_in_time :
    let seven := "2026-01-10T12:00:00+05:00"
    let eight := "2026-01-10T08:00:00Z"
    let nine := "2026-01-10T10:00:00.5+01:00"
    let document : Json := .mk [("attributes", .mk [("at", .string seven)])]
    let holds (operator : Operator) (t : String) := (⟨"at", operator, .value (.string t)⟩ : Condition).holds document
    resolve document "at" = some (.string seven) ∧
      [Operator.lessThan, .equals, .greaterThan].countP (holds · eight) = 1 ∧
      holds .lessThanEquals eight = true ∧ holds .greaterThanEquals seven = true ∧
      compareTo (.string eight) (.value (.string nine)) = some .lt ∧ holds .lessThan nine = true := by
  intro seven eight nine document holds
  have resolved : resolve document "at" = some (.string seven) := by decide +kernel
  have named (t : String) (member : t ∈ [seven, eight, nine]) : Instant.ofStrict? t ≠ none := by
    revert t
    decide +kernel
  have upright {low mid high : String} (member : mid ∈ [seven, eight, nine]) : ¬ Inverted low mid high :=
    fun inverted => named mid member inverted.unnamed
  obtain ⟨counted, atMost, atLeast, ascent⟩ := string_comparisons_coherent resolved
  have first : holds .lessThan eight = true := by decide +kernel
  have second : compareTo (.string eight) (.value (.string nine)) = some .lt := by decide +kernel
  refine ⟨resolved, ?_, (atMost eight).2 (.inl first), (atLeast seven).2 (.inr (.inl (by decide +kernel))), second,
    (ascent eight nine first second).2 ?_⟩
  · rw [counted eight]
    decide +kernel
  · rintro (inverted | inverted | inverted)
    · exact upright (by simp) inverted
    · exact upright (by simp) inverted
    · exact upright (by simp) inverted

/-- A string that is another name of the operand's instant is neither less nor equal nor greater, but at most and
at least the operand. A text between two names of instants breaks an ascent. -/
theorem string_comparisons_incoherent :
    let ten := "2026-01-10T10:00:00Z"
    let again := "2026-01-10T10:00:00+00:00"
    let between := "2026-01-10T11"
    let seven := "2026-01-10T12:00:00+05:00"
    let document : Json := .mk [("at", .string ten)]
    let holds (operator : Operator) (t : String) := (⟨"at", operator, .value (.string t)⟩ : Condition).holds document
    resolve document "at" = some (.string ten) ∧
      (holds .lessThan again = false ∧ holds .equals again = false ∧ holds .greaterThan again = false) ∧
      (holds .lessThanEquals again = true ∧ holds .greaterThanEquals again = true) ∧
      holds .lessThan between = true ∧ compareTo (.string between) (.value (.string seven)) = some .lt ∧
        holds .lessThan seven = false := by
  decide +kernel

end Condition

end CustomerSegments
