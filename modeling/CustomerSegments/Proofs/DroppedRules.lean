import CustomerSegments.Proofs.RuleMeaning

namespace CustomerSegments

/-- The rules that make a condition at a reference time. -/
def keptRules (now : Instant) (rules : List Rule) : List Rule :=
  rules.filter fun r => (r.condition? now).isSome

/-- How the group of an id is joined: as the first rule that carries the id says. -/
def joining (rules : List Rule) (id : String) : Connective :=
  .ofToken ((founder? rules id).bind (·.connective))

variable {now : Instant} {rules : List Rule}

/-- The rules that are left out have no part in the conditions of a group. -/
theorem conditionsOf_keptRules (now : Instant) (rules : List Rule) (group : Option String) :
    conditionsOf now (keptRules now rules) group = conditionsOf now rules group := by
  rw [conditionsOf, keptRules, List.filter_comm, List.filterMap_filter, conditionsOf]
  congr 1
  funext r
  cases r.condition? now <;> rfl

theorem mem_groupIds_of_passes {id : String} {document : Json} (passes : (groupOf now rules id).Passes document) :
    id ∈ groupIds rules := by
  obtain ⟨r, member, carried, _⟩ := conditionsOf_ne_nil.mp passes.1
  exact mem_groupIds.mpr ⟨r, member, carried⟩

/-- One condition by itself decides alike under both connectives. -/
theorem Group.passes_congr {g g' : Group} {document : Json} (same : g'.conditions = g.conditions)
    (joined : 2 ≤ g.conditions.length → g'.connective = g.connective) : g'.Passes document ↔ g.Passes document := by
  unfold Passes
  rw [same]
  match several : g.conditions with
  | [] => simp
  | [c] => cases g.connective <;> cases g'.connective <;> simp
  | c :: d :: rest =>
    have wide : 2 ≤ g.conditions.length := by
      rw [several]
      exact Nat.le_add_left 2 _
    rw [joined wide]

theorem passes_keptRules_iff {id : String} {document : Json}
    (joined : 2 ≤ (conditionsOf now rules (some id)).length → joining (keptRules now rules) id = joining rules id) :
    (groupOf now (keptRules now rules) id).Passes document ↔ (groupOf now rules id).Passes document :=
  Group.passes_congr (conditionsOf_keptRules now rules (some id)) joined

/-- Rules that are left out leave no trace, but where one of them is the first to carry the id of a group:
unless it joins two or more conditions otherwise than the first rule of the group that stays, the list
means the same without the rules that are left out. -/
theorem holds_compile_keptRules
    (joined : ∀ id, 2 ≤ (conditionsOf now rules (some id)).length → joining (keptRules now rules) id = joining rules id)
    (document : Json) :
    (compile (keptRules now rules) now).predicate.holds document = (compile rules now).predicate.holds document := by
  rw [Bool.eq_iff_iff, Compilation.predicate, Compilation.predicate, compile_clauses, compile_clauses,
    Clauses.holds_predicate_iff, Clauses.holds_predicate_iff]
  simp only [Clauses.ofRules, conditionsOf_keptRules, List.mem_map, exists_exists_and_eq_and]
  refine or_congr Iff.rfl ⟨?_, ?_⟩
  · rintro ⟨id, _, passes⟩
    have passes := (passes_keptRules_iff (joined id)).mp passes
    exact ⟨id, mem_groupIds_of_passes passes, passes⟩
  · rintro ⟨id, _, passes⟩
    have passes := (passes_keptRules_iff (joined id)).mpr passes
    exact ⟨id, mem_groupIds_of_passes passes, passes⟩

/-- Rules for gold customers in Rome, in a group that a rule with an unknown operator founds. -/
def romans (founding connective : Connective) : List Rule :=
  [(Rule.single "location" "between" .null).inGroup "g" founding,
    (Rule.single "location" "=" (.string "Rome")).inGroup "g" connective,
    (Rule.single "tier" "=" (.string "gold")).inGroup "g" connective]

theorem holds_compile_keptRules_romans :
    (compile (romans .disj .disj) .epoch).dropped.length = 1 ∧
      (∀ id, 2 ≤ (conditionsOf .epoch (romans .disj .disj) (some id)).length →
        joining (keptRules .epoch (romans .disj .disj)) id = joining (romans .disj .disj) id) ∧
      (compile (keptRules .epoch (romans .disj .disj)) .epoch).predicate.holds (.mk [("location", .string "Rome")]) =
        (compile (romans .disj .disj) .epoch).predicate.holds (.mk [("location", .string "Rome")]) := by
  have joined : ∀ id, 2 ≤ (conditionsOf .epoch (romans .disj .disj) (some id)).length →
      joining (keptRules .epoch (romans .disj .disj)) id = joining (romans .disj .disj) id := by
    intro id several
    have nonempty := List.ne_nil_of_length_pos (Nat.lt_of_lt_of_le Nat.zero_lt_two several)
    obtain ⟨r, member, carried, _⟩ := conditionsOf_ne_nil.mp nonempty
    have known : id ∈ groupIds (romans .disj .disj) := mem_groupIds.mpr ⟨r, member, carried⟩
    have only : groupIds (romans .disj .disj) = ["g"] := by decide +kernel
    rw [only, List.mem_singleton] at known
    subst known
    decide +kernel
  exact ⟨by decide +kernel, joined, holds_compile_keptRules joined _⟩

/-- A rule that is left out still joins the group that it founds. -/
example :
    let document : Json := .mk [("location", .string "Rome")]
    (compile (romans .disj .conj) .epoch).predicate.holds document = true ∧
      (compile (keptRules .epoch (romans .disj .conj)) .epoch).predicate.holds document = false := by
  decide +kernel

end CustomerSegments
