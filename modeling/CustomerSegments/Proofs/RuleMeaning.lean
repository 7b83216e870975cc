import CustomerSegments.Predicate.Matching
import CustomerSegments.Proofs.Clauses

namespace CustomerSegments

namespace Predicate

variable {document : Json} {ps : List Predicate}

theorem holds_of_conj? {p : Predicate} (joined : conj? ps = some p) :
    p.holds document = true ↔ ∀ q ∈ ps, q.holds document = true := by
  match ps, joined with
  | [q], joined =>
    cases joined
    simp
  | q :: r :: rest, joined =>
    cases joined
    rw [holds, allHold_eq_all, List.all_eq_true]

theorem holds_of_disj? {p : Predicate} (joined : disj? ps = some p) :
    p.holds document = true ↔ ∃ q ∈ ps, q.holds document = true := by
  match ps, joined with
  | [q], joined =>
    cases joined
    simp
  | q :: r :: rest, joined =>
    cases joined
    rw [holds, anyHolds_eq_any, List.any_eq_true]

theorem conj?_isSome : (conj? ps).isSome ↔ ps ≠ [] := by
  match ps with
  | [] => simp [conj?]
  | [q] => simp [conj?]
  | q :: r :: rest => simp [conj?]

theorem disj?_isSome : (disj? ps).isSome ↔ ps ≠ [] := by
  match ps with
  | [] => simp [disj?]
  | [q] => simp [disj?]
  | q :: r :: rest => simp [disj?]

/-- A conjunction that is there holds if every part does. -/
theorem exists_conj?_holds :
    (∃ p, conj? ps = some p ∧ p.holds document = true) ↔ ps ≠ [] ∧ ∀ q ∈ ps, q.holds document = true := by
  rw [← conj?_isSome, Option.isSome_iff_exists]
  constructor
  · rintro ⟨p, joined, holds⟩
    exact ⟨⟨p, joined⟩, (holds_of_conj? joined).mp holds⟩
  · rintro ⟨⟨p, joined⟩, all⟩
    exact ⟨p, joined, (holds_of_conj? joined).mpr all⟩

/-- A disjunction that is there holds if some part does, and one with such a part is there. -/
theorem exists_disj?_holds :
    (∃ p, disj? ps = some p ∧ p.holds document = true) ↔ ∃ q ∈ ps, q.holds document = true := by
  constructor
  · rintro ⟨p, joined, holds⟩
    exact (holds_of_disj? joined).mp holds
  · rintro ⟨q, member, holds⟩
    obtain ⟨p, joined⟩ := Option.isSome_iff_exists.mp (disj?_isSome.mpr (List.ne_nil_of_mem member))
    exact ⟨p, joined, (holds_of_disj? joined).mpr ⟨q, member, holds⟩⟩

end Predicate

namespace Group

/-- The conditions of a group that stayed in it decide about a document; a group without conditions
lets nobody pass. -/
def Passes (g : Group) (document : Json) : Prop :=
  g.conditions ≠ [] ∧
    match g.connective with
    | .conj => ∀ c ∈ g.conditions, c.holds document = true
    | .disj => ∃ c ∈ g.conditions, c.holds document = true

theorem exists_joined?_holds {g : Group} {document : Json} :
    (∃ p, Predicate.joined? g.connective (g.conditions.map .condition) = some p ∧ p.holds document = true) ↔
      g.Passes document := by
  unfold Passes
  cases g.connective with
  | conj => simp [Predicate.joined?, Predicate.exists_conj?_holds, Predicate.holds]
  | disj =>
    simp only [Predicate.joined?, Predicate.exists_disj?_holds, List.mem_map, exists_exists_and_eq_and,
      Predicate.holds]
    exact ⟨fun h => ⟨List.ne_nil_of_mem h.choose_spec.1, h⟩, fun h => h.2⟩

end Group

namespace Clauses

/-- The clauses let a document pass by the single rules together or by one group. -/
theorem holds_predicate_iff {clauses : Clauses} {document : Json} :
    clauses.predicate.holds document = true ↔
      (clauses.single ≠ [] ∧ ∀ c ∈ clauses.single, c.holds document = true) ∨
        ∃ g ∈ clauses.groups, g.Passes document := by
  have whole : clauses.predicate.holds document = true ↔
      ∃ p, Predicate.disj? clauses.parts = some p ∧ p.holds document = true := by
    unfold predicate
    cases Predicate.disj? clauses.parts <;> simp [Predicate.holds]
  have single : (∃ p, Predicate.conj? (clauses.single.map .condition) = some p ∧ p.holds document = true) ↔
      clauses.single ≠ [] ∧ ∀ c ∈ clauses.single, c.holds document = true := by
    simp [Predicate.exists_conj?_holds, Predicate.holds]
  rw [whole, Predicate.exists_disj?_holds, ← single]
  simp only [parts, List.mem_append, Option.mem_toList, List.mem_filterMap, or_and_right, exists_or]
  refine or_congr Iff.rfl ?_
  constructor
  · rintro ⟨p, ⟨g, member, joined⟩, holds⟩
    exact ⟨g, member, Group.exists_joined?_holds.mp ⟨p, joined, holds⟩⟩
  · rintro ⟨g, member, passes⟩
    obtain ⟨p, joined, holds⟩ := Group.exists_joined?_holds.mpr passes
    exact ⟨p, ⟨g, member, joined⟩, holds⟩

end Clauses

theorem conditionsOf_ne_nil {now : Instant} {rules : List Rule} {group : Option String} :
    conditionsOf now rules group ≠ [] ↔ ∃ r ∈ rules, r.group? = group ∧ (r.condition? now).isSome := by
  constructor
  · intro nonempty
    obtain ⟨c, member⟩ := List.exists_mem_of_ne_nil _ nonempty
    obtain ⟨r, inRules, carried, kept⟩ := mem_conditionsOf.mp member
    exact ⟨r, inRules, carried, Option.isSome_iff_exists.mpr ⟨c, kept⟩⟩
  · rintro ⟨r, inRules, carried, kept⟩
    obtain ⟨c, kept⟩ := Option.isSome_iff_exists.mp kept
    exact List.ne_nil_of_mem (mem_conditionsOf.mpr ⟨r, inRules, carried, kept⟩)

/-- The meaning of a rule list. The single rules that are not left out have to hold together, or the
rules of one group by the connective of the first rule that carries the group's id. The rules that are
left out ask for nothing, and a clause of such rules only lets nobody pass. -/
theorem holds_compile_iff (rules : List Rule) (now : Instant) (document : Json) :
    (compile rules now).predicate.holds document = true ↔
      ((∃ r ∈ rules, r.group? = none ∧ (r.condition? now).isSome) ∧
        ∀ r ∈ rules, r.group? = none → ∀ c ∈ r.condition? now, c.holds document = true) ∨
      ∃ id first, rules.find? (·.group? = some id) = some first ∧
        (∃ r ∈ rules, r.group? = some id ∧ (r.condition? now).isSome) ∧
          match Connective.ofToken first.connective with
          | .conj => ∀ r ∈ rules, r.group? = some id → ∀ c ∈ r.condition? now, c.holds document = true
          | .disj => ∃ r ∈ rules, r.group? = some id ∧ ∃ c ∈ r.condition? now, c.holds document = true := by
  have all (group : Option String) : (∀ c ∈ conditionsOf now rules group, c.holds document = true) ↔
      ∀ r ∈ rules, r.group? = group → ∀ c ∈ r.condition? now, c.holds document = true := by
    simp only [mem_conditionsOf]
    exact ⟨fun h r member carried c kept => h c ⟨r, member, carried, kept⟩,
      fun h c ⟨r, member, carried, kept⟩ => h r member carried c kept⟩
  have any (id : String) : (∃ c ∈ conditionsOf now rules (some id), c.holds document = true) ↔
      ∃ r ∈ rules, r.group? = some id ∧ ∃ c ∈ r.condition? now, c.holds document = true := by
    simp only [mem_conditionsOf]
    exact ⟨fun ⟨c, ⟨r, member, carried, kept⟩, holds⟩ => ⟨r, member, carried, c, kept, holds⟩,
      fun ⟨r, member, carried, c, kept, holds⟩ => ⟨c, ⟨r, member, carried, kept⟩, holds⟩⟩
  rw [Compilation.predicate, compile_clauses, Clauses.holds_predicate_iff]
  simp only [Clauses.ofRules, List.mem_map, exists_exists_and_eq_and]
  refine or_congr (and_congr conditionsOf_ne_nil (all none)) ?_
  constructor
  · rintro ⟨id, founded, kept, passes⟩
    obtain ⟨first, found⟩ := Option.isSome_iff_exists.mp (founder?_isSome.mpr founded)
    refine ⟨id, first, found, conditionsOf_ne_nil.mp kept, ?_⟩
    simp only [groupOf, found, Option.bind_some] at passes
    cases joined : Connective.ofToken first.connective with
    | conj => exact (all (some id)).mp (by simpa only [joined] using passes)
    | disj => exact (any id).mp (by simpa only [joined] using passes)
  · rintro ⟨id, first, found, kept, passes⟩
    refine ⟨id, founder?_isSome.mp (Option.isSome_iff_exists.mpr ⟨first, found⟩), conditionsOf_ne_nil.mpr kept, ?_⟩
    simp only [groupOf, founder?, found, Option.bind_some]
    cases joined : Connective.ofToken first.connective with
    | conj => exact (all (some id)).mpr (by simpa only [joined] using passes)
    | disj => exact (any id).mpr (by simpa only [joined] using passes)

/-- The single rules decide about a document together, or one of the groups does. -/
theorem holds_compile_iff_passes {rules : List Rule} {now : Instant} {document : Json} :
    (compile rules now).predicate.holds document = true ↔
      (conditionsOf now rules none ≠ [] ∧ ∀ c ∈ conditionsOf now rules none, c.holds document = true) ∨
        ∃ id ∈ groupIds rules, (groupOf now rules id).Passes document := by
  rw [Compilation.predicate, compile_clauses, Clauses.holds_predicate_iff]
  simp only [Clauses.ofRules, List.mem_map, exists_exists_and_eq_and]

/-- A rule by itself means its condition, whatever group it names. -/
theorem holds_compile_singleton (rule : Rule) (now : Instant) (document : Json) :
    (compile [rule] now).predicate.holds document = (rule.condition? now).any (·.holds document) := by
  have conditions (group : Option String) : conditionsOf now [rule] group =
      if rule.group? = group then (rule.condition? now).toList else [] := conditionsOf_concat now [] rule group
  have ids {id : String} : id ∈ groupIds [rule] ↔ rule.group? = some id := by simp [mem_groupIds]
  rw [Bool.eq_iff_iff, holds_compile_iff_passes]
  cases carried : rule.group? with
  | none => cases kept : rule.condition? now <;> simp [ids, carried, conditions, kept]
  | some id =>
    have alone {g : Group} (only : g.conditions = (rule.condition? now).toList) :
        g.Passes document ↔ (rule.condition? now).any (·.holds document) = true := by
      unfold Group.Passes
      rw [only]
      cases rule.condition? now <;> cases g.connective <;> simp
    have own : (groupOf now [rule] id).conditions = (rule.condition? now).toList := by
      rw [groupOf, conditions, if_pos carried]
    simp [ids, carried, conditions, alone own]

end CustomerSegments
