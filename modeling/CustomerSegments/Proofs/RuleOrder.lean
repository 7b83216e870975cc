import CustomerSegments.Proofs.RuleMeaning

namespace CustomerSegments

/-- The rules with one group id agree on how the group is joined. -/
def JoinedAlike (rules : List Rule) : Prop :=
  ∀ r ∈ rules, ∀ r' ∈ rules, ∀ id, r.group? = some id → r'.group? = some id →
    Connective.ofToken r.connective = Connective.ofToken r'.connective

variable {rules rules' : List Rule} {now : Instant} {document : Json}

/-- A group decides by the set of its conditions. -/
theorem Group.passes_of_same_conditions {g g' : Group} (joined : g.connective = g'.connective)
    (same : ∀ c, c ∈ g.conditions ↔ c ∈ g'.conditions) : g.Passes document ↔ g'.Passes document := by
  unfold Passes
  rw [joined]
  simp only [ne_eq, List.eq_nil_iff_forall_not_mem, same]

section

variable (same : ∀ r, r ∈ rules ↔ r ∈ rules')

include same

theorem mem_conditionsOf_congr {group : Option String} (c : Condition) :
    c ∈ conditionsOf now rules group ↔ c ∈ conditionsOf now rules' group := by
  simp only [mem_conditionsOf, same]

theorem mem_groupIds_congr (id : String) : id ∈ groupIds rules ↔ id ∈ groupIds rules' := by
  simp only [mem_groupIds, same]

/-- Where the rules of a group agree, it does not matter which of them comes first. -/
theorem JoinedAlike.connective_eq (alike : JoinedAlike rules) {id : String} (known : id ∈ groupIds rules) :
    (groupOf now rules id).connective = (groupOf now rules' id).connective := by
  obtain ⟨first, found⟩ := Option.isSome_iff_exists.mp (founder?_isSome.mpr known)
  obtain ⟨first', found'⟩ := Option.isSome_iff_exists.mp (founder?_isSome.mpr ((mem_groupIds_congr same id).mp known))
  have member := (same first').mpr (List.mem_of_find?_eq_some found')
  have joined := alike first (List.mem_of_find?_eq_some found) first' member id (by simpa using List.find?_some found)
    (by simpa using List.find?_some found')
  rw [groupOf, groupOf, found, found']
  exact joined

/-- Neither the order of rules nor their repetition matters to an audience. Two lists of the same rules mean
the same at all times, provided that the rules with one group id agree on how the group is joined. -/
theorem holds_compile_of_same_rules (alike : JoinedAlike rules) (now : Instant) (document : Json) :
    (compile rules now).predicate.holds document = (compile rules' now).predicate.holds document := by
  have conditions {group : Option String} (c : Condition) :
      c ∈ conditionsOf now rules group ↔ c ∈ conditionsOf now rules' group := mem_conditionsOf_congr same c
  have single : (conditionsOf now rules none ≠ [] ∧ ∀ c ∈ conditionsOf now rules none, c.holds document = true) ↔
      (conditionsOf now rules' none ≠ [] ∧ ∀ c ∈ conditionsOf now rules' none, c.holds document = true) := by
    simp only [ne_eq, List.eq_nil_iff_forall_not_mem, conditions]
  have grouped (id : String) : (id ∈ groupIds rules ∧ (groupOf now rules id).Passes document) ↔
      (id ∈ groupIds rules' ∧ (groupOf now rules' id).Passes document) := by
    rw [← mem_groupIds_congr same]
    exact and_congr_right fun known => Group.passes_of_same_conditions (alike.connective_eq same known) conditions
  rw [Bool.eq_iff_iff, holds_compile_iff_passes, holds_compile_iff_passes]
  exact or_congr single (exists_congr grouped)

end

/-- A rule on its own, and two rules of one group whose id and connective stand between blank characters. -/
def readers : List Rule :=
  [.single "tags" "contains" (.string "Newsletter"),
    { Rule.single "visit_count" ">" (.number (.integer .zero)) with groupId := some "g", connective := some "OR" },
    { Rule.single "location" "=" (.string "Rome") with groupId := some " g ", connective := some " or" }]

theorem holds_compile_of_same_rules_readers :
    let shuffled := readers.reverse ++ readers
    let roman : Json := .mk [("location", .string "Rome")]
    JoinedAlike readers ∧ (∀ r, r ∈ readers ↔ r ∈ shuffled) ∧
      (compile readers .epoch).clauses.groups.map (·.conditions.length) = [2] ∧
      (compile shuffled .epoch).clauses.groups.map (·.conditions.length) = [4] ∧
      (compile readers .epoch).predicate.holds roman = true ∧
      (compile readers .epoch).predicate.holds roman = (compile shuffled .epoch).predicate.holds roman := by
  intro shuffled roman
  have alike : JoinedAlike readers := by
    intro r member r' member' id carried carried'
    have grouped : ∀ q ∈ readers, q.group? ≠ none → Connective.ofToken q.connective = .disj := by decide +kernel
    rw [grouped r member (by rw [carried]; exact Option.some_ne_none id),
      grouped r' member' (by rw [carried']; exact Option.some_ne_none id)]
  have same (r : Rule) : r ∈ readers ↔ r ∈ shuffled := by simp [shuffled]
  exact ⟨alike, same, by decide +kernel, by decide +kernel, by decide +kernel,
    holds_compile_of_same_rules same alike .epoch roman⟩

/-- Where the rules of a group disagree, the first one decides. -/
example :
    let rules : List Rule := [(Rule.single "location" "=" (.string "Rome")).inGroup "g" .disj,
      (Rule.single "tier" "=" (.string "gold")).inGroup "g" .conj]
    let roman : Json := .mk [("location", .string "Rome")]
    (compile rules .epoch).predicate.holds roman = true ∧
      (compile rules.reverse .epoch).predicate.holds roman = false := by
  decide +kernel

end CustomerSegments
