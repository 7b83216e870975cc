import CustomerSegments.Proofs.RuleMeaning
import Mathlib.Data.List.Perm.Basic

namespace CustomerSegments

namespace Predicate

mutual

/-- The conditions of a predicate, read from left to right. -/
def conditions : Predicate → List Condition
  | nothing => []
  | condition c => [c]
  | all parts | any parts => conditionsOfParts parts

@[inherit_doc conditions]
def conditionsOfParts : List Predicate → List Condition
  | [] => []
  | p :: ps => p.conditions ++ conditionsOfParts ps

end

section

variable {d d' : Json}

mutual

/-- A predicate looks at a document through its conditions only. -/
theorem holds_congr : {p : Predicate} → (∀ c ∈ p.conditions, c.holds d = c.holds d') → p.holds d = p.holds d'
  | nothing, _ => rfl
  | condition c, same => same c (List.mem_singleton_self c)
  | all _, same => allHold_congr same
  | any _, same => anyHolds_congr same

theorem allHold_congr : {ps : List Predicate} → (∀ c ∈ conditionsOfParts ps, c.holds d = c.holds d') →
    allHold d ps = allHold d' ps
  | [], _ => rfl
  | _ :: _, same => by
    rw [allHold, allHold, holds_congr fun c member => same c (List.mem_append_left _ member),
      allHold_congr fun c member => same c (List.mem_append_right _ member)]

theorem anyHolds_congr : {ps : List Predicate} → (∀ c ∈ conditionsOfParts ps, c.holds d = c.holds d') →
    anyHolds d ps = anyHolds d' ps
  | [], _ => rfl
  | _ :: _, same => by
    rw [anyHolds, anyHolds, holds_congr fun c member => same c (List.mem_append_left _ member),
      anyHolds_congr fun c member => same c (List.mem_append_right _ member)]

end

end

/-- A condition by itself, or at least two conditions joined by one connective. -/
inductive IsClause : Predicate → Prop
  | single (c : Condition) : IsClause (condition c)
  | conj {cs : List Condition} (several : 2 ≤ cs.length) : IsClause (all (cs.map condition))
  | disj {cs : List Condition} (several : 2 ≤ cs.length) : IsClause (any (cs.map condition))

/-- No clause at all, one clause by itself, or the disjunction of at least two clauses. -/
inductive Canonical : Predicate → Prop
  | nothing : Canonical nothing
  | clause {p : Predicate} (clause : p.IsClause) : Canonical p
  | clauses {ps : List Predicate} (several : 2 ≤ ps.length) (each : ∀ p ∈ ps, p.IsClause) : Canonical (any ps)

variable {p : Predicate} {ps : List Predicate} {cs : List Condition}

theorem conditionsOfParts_eq_flatMap (ps : List Predicate) : conditionsOfParts ps = ps.flatMap conditions := by
  induction ps with
  | nil => rfl
  | cons p ps ih => rw [conditionsOfParts, ih, List.flatMap_cons]

theorem conditionsOfParts_map_condition (cs : List Condition) : conditionsOfParts (cs.map condition) = cs := by
  induction cs with
  | nil => rfl
  | cons c cs ih => rw [List.map_cons, conditionsOfParts, ih, conditions, List.singleton_append]

theorem IsClause.conditions_ne_nil (clause : p.IsClause) : p.conditions ≠ [] := by
  cases clause with
  | single c => exact List.cons_ne_nil c []
  | conj several | disj several =>
    rw [conditions, conditionsOfParts_map_condition]
    exact List.ne_nil_of_length_pos (Nat.lt_of_lt_of_le Nat.zero_lt_two several)

/-- Conditions that are joined make one clause, which keeps them in their order; no condition makes no clause. -/
theorem joined?_conditions (connective : Connective) (cs : List Condition) :
    (joined? connective (cs.map condition) = none ∧ cs = []) ∨
      ∃ p, joined? connective (cs.map condition) = some p ∧ p.IsClause ∧ p.conditions = cs := by
  match cs, connective with
  | [], .conj | [], .disj => exact .inl ⟨rfl, rfl⟩
  | [c], .conj | [c], .disj => exact .inr ⟨condition c, rfl, .single c, rfl⟩
  | c :: d :: rest, .conj =>
    have kept := conditionsOfParts_map_condition (c :: d :: rest)
    exact .inr ⟨all ((c :: d :: rest).map condition), rfl, .conj (Nat.le_add_left 2 _), kept⟩
  | c :: d :: rest, .disj =>
    have kept := conditionsOfParts_map_condition (c :: d :: rest)
    exact .inr ⟨any ((c :: d :: rest).map condition), rfl, .disj (Nat.le_add_left 2 _), kept⟩

theorem toList_joined?_isClause {connective : Connective}
    (made : p ∈ (joined? connective (cs.map condition)).toList) : p.IsClause := by
  rw [Option.mem_toList] at made
  rcases joined?_conditions connective cs with ⟨none, _⟩ | ⟨q, some, clause, _⟩
  · rw [none] at made
    cases made
  · rw [some] at made
    cases made
    exact clause

theorem flatMap_toList_joined? (connective : Connective) (cs : List Condition) :
    (joined? connective (cs.map condition)).toList.flatMap conditions = cs := by
  rcases joined?_conditions connective cs with ⟨none, rfl⟩ | ⟨q, some, _, kept⟩
  · rw [none]
    rfl
  · rw [some, Option.toList_some, List.flatMap_singleton, kept]

/-- The disjunction of clauses is canonical, and keeps their conditions in their order. -/
theorem disj?_clauses (each : ∀ p ∈ ps, p.IsClause) :
    ((disj? ps).getD nothing).Canonical ∧ ((disj? ps).getD nothing).conditions = ps.flatMap conditions := by
  match ps, each with
  | [], _ => exact ⟨.nothing, rfl⟩
  | [p], each =>
    refine ⟨.clause (each p (List.mem_singleton_self p)), ?_⟩
    rw [List.flatMap_singleton]
    rfl
  | p :: q :: rest, each => exact ⟨.clauses (Nat.le_add_left 2 _) each, conditionsOfParts_eq_flatMap _⟩

/-- Of the canonical predicates only the one that holds of nobody has no conditions. -/
theorem Canonical.conditions_eq_nil_iff (canonical : p.Canonical) : p.conditions = [] ↔ p = .nothing := by
  constructor
  · intro none
    cases canonical with
    | nothing => rfl
    | clause clause => exact absurd none clause.conditions_ne_nil
    | clauses several each =>
      obtain ⟨q, member⟩ := List.exists_mem_of_length_pos (Nat.lt_of_lt_of_le Nat.zero_lt_two several)
      rw [conditions, conditionsOfParts_eq_flatMap, List.flatMap_eq_nil_iff] at none
      exact absurd (none q member) (each q member).conditions_ne_nil
  · rintro rfl
    rfl

end Predicate

namespace Clauses

variable (clauses : Clauses)

theorem parts_eq : clauses.parts =
    (Predicate.joined? .conj (clauses.single.map .condition)).toList ++
      clauses.groups.flatMap fun g => (Predicate.joined? g.connective (g.conditions.map .condition)).toList := by
  rw [parts, List.filterMap_eq_flatMap_toList]
  rfl

theorem isClause_of_mem_parts {p : Predicate} (member : p ∈ clauses.parts) : p.IsClause := by
  rw [parts_eq, List.mem_append, List.mem_flatMap] at member
  rcases member with single | ⟨g, _, group⟩
  · exact Predicate.toList_joined?_isClause single
  · exact Predicate.toList_joined?_isClause group

theorem flatMap_parts :
    clauses.parts.flatMap Predicate.conditions = clauses.single ++ clauses.groups.flatMap (·.conditions) := by
  rw [parts_eq, List.flatMap_append, Predicate.flatMap_toList_joined?, List.flatMap_assoc]
  simp only [Predicate.flatMap_toList_joined?]

theorem predicate_canonical : clauses.predicate.Canonical :=
  (Predicate.disj?_clauses fun _ member => clauses.isClause_of_mem_parts member).1

/-- The predicate of clauses has their conditions, clause by clause. -/
theorem conditions_predicate :
    clauses.predicate.conditions = clauses.single ++ clauses.groups.flatMap (·.conditions) :=
  (Predicate.disj?_clauses fun _ member => clauses.isClause_of_mem_parts member).2.trans clauses.flatMap_parts

end Clauses

/-- What is reported of a rule that is left out at a reference time. -/
def Rule.drop? (now : Instant) (rule : Rule) : Option Drop :=
  match rule.term.condition now with
  | .ok _ => none
  | .error reason => some ⟨rule.term, reason⟩

/-- A rule is reported or makes a condition, and never both. -/
theorem Rule.drop?_isSome_iff {now : Instant} {rule : Rule} :
    (rule.drop? now).isSome ↔ rule.condition? now = none := by
  unfold drop? condition?
  cases rule.term.condition now <;> simp [Except.toOption]

theorem compile_dropped (rules : List Rule) (now : Instant) :
    (compile rules now).dropped = rules.filterMap (Rule.drop? now) := by
  induction rules using List.reverseRecOn with
  | nil => rfl
  | append_singleton rules rule ih =>
    rw [compile_concat, Compilation.add, List.filterMap_append, ← ih, List.filterMap_cons, List.filterMap_nil, Rule.drop?]
    cases rule.term.condition now with
    | ok condition => exact (List.append_nil _).symm
    | error reason => rfl

theorem conditions_compile (rules : List Rule) (now : Instant) :
    (compile rules now).predicate.conditions =
      conditionsOf now rules none ++ (groupIds rules).flatMap fun id => conditionsOf now rules (some id) := by
  rw [Compilation.predicate, compile_clauses, Clauses.conditions_predicate, Clauses.ofRules, List.flatMap_map]
  rfl

/-- The group ids in the order of their founders are those of all rules, each at its first place. -/
theorem groupIds_eq_eraseDups (rules : List Rule) : groupIds rules = (rules.filterMap Rule.group?).eraseDups := by
  induction rules using List.reverseRecOn with
  | nil => rfl
  | append_singleton rules rule ih =>
    rw [groupIds_concat, ih, List.filterMap_append, List.eraseDups_append, noteGroup]
    cases carried : rule.group? with
    | none => simp [carried, List.removeAll]
    | some id =>
      have new : [rule].filterMap Rule.group? = [id] := by rw [List.filterMap_cons, carried, List.filterMap_nil]
      by_cases known : id ∈ rules.filterMap Rule.group?
      · rw [new, List.removeAll, List.filter_cons_of_neg (by simpa using known)]
        simp only [List.mem_eraseDups, known, if_true, List.filter_nil, List.eraseDups_nil, List.append_nil]
      · rw [new, List.removeAll, List.filter_cons_of_pos (by simpa using known)]
        simp only [List.mem_eraseDups, known, if_false, List.eraseDups_cons, List.filter_nil, List.eraseDups_nil]

section

variable {α β : Type} [DecidableEq β]

/-- A list sorted by the keys of its elements, those without a key first, has the elements of the list. -/
theorem perm_sorted_by_key (key : α → Option β) {keys : List β} (distinct : keys.Nodup) {l : List α}
    (covered : ∀ a ∈ l, ∀ k, key a = some k → k ∈ keys) :
    (l.filter (key · = none) ++ keys.flatMap fun k => l.filter (key · = some k)).Perm l := by
  induction l with
  | nil => simp
  | cons a l ih =>
    have rest := ih fun b member => covered b (List.mem_cons_of_mem a member)
    cases carried : key a with
    | none => simpa [List.filter_cons, carried] using rest
    | some k =>
      -- only the part of the element's own key grows, the parts of the keys around it stay
      obtain ⟨front, back, shape⟩ := List.append_of_mem (covered a List.mem_cons_self k carried)
      have apart {other : β} (member : other ∈ front ++ back) : k ≠ other := by
        rintro rfl
        rw [shape, List.nodup_middle, List.nodup_cons] at distinct
        exact distinct.1 member
      have unchanged {part : List β} (within : ∀ other ∈ part, other ∈ front ++ back) :
          (part.flatMap fun other => (a :: l).filter (key · = some other)) =
            part.flatMap fun other => l.filter (key · = some other) := by
        refine List.flatMap_congr fun other member => ?_
        simp [carried, apart (within other member)]
      rw [shape, List.flatMap_append, List.flatMap_cons, ← List.append_assoc] at rest ⊢
      rw [unchanged fun other => List.mem_append_left back, unchanged fun other => List.mem_append_right front]
      simp only [List.filter_cons, carried, reduceCtorEq, decide_false, Bool.false_eq_true, if_false, decide_true,
        if_true, List.cons_append]
      exact List.perm_middle.trans (rest.cons a)

end

/-- Every rule that is not left out adds its one condition. -/
theorem conditions_compile_perm (rules : List Rule) (now : Instant) :
    (compile rules now).predicate.conditions.Perm (rules.filterMap (Rule.condition? now)) := by
  have sorted := perm_sorted_by_key Rule.group? (groupIds_nodup rules) (l := rules) fun r member id carried =>
    mem_groupIds.mpr ⟨r, member, carried⟩
  have kept := sorted.filterMap (Rule.condition? now)
  rw [List.filterMap_append, List.filterMap_flatMap] at kept
  rw [conditions_compile]
  exact kept

theorem mem_conditions_compile {rules : List Rule} {now : Instant} {c : Condition} :
    c ∈ (compile rules now).predicate.conditions ↔ ∃ r ∈ rules, r.condition? now = some c := by
  rw [(conditions_compile_perm rules now).mem_iff, List.mem_filterMap]

/-- A compiled rule list accounts for every rule, and is in normal form. The rules that are left out are
reported, each once and in their order, and every other rule adds one condition. The predicate is
nothing exactly if all rules are left out; otherwise it is a clause or a disjunction of at least two
clauses, where a clause is a condition or joins at least two. From left to right stand the conditions of
the single rules, then those of each group; the groups stand in the order of the first rules that carry
their ids, left out or not, and within a group the conditions stand in the order of their rules. -/
theorem compile_canonical (rules : List Rule) (now : Instant) :
    let predicate := (compile rules now).predicate
    predicate.Canonical ∧
      (predicate = .nothing ↔ ∀ r ∈ rules, (r.drop? now).isSome) ∧
      (compile rules now).dropped = rules.filterMap (Rule.drop? now) ∧
      (∀ r : Rule, (r.drop? now).isSome ↔ r.condition? now = none) ∧
      predicate.conditions.Perm (rules.filterMap (Rule.condition? now)) ∧
      predicate.conditions =
        (rules.filter (·.group? = none)).filterMap (Rule.condition? now) ++
          (rules.filterMap Rule.group?).eraseDups.flatMap fun id =>
            (rules.filter (·.group? = some id)).filterMap (Rule.condition? now) := by
  intro predicate
  have canonical : predicate.Canonical := Clauses.predicate_canonical _
  have accounted := conditions_compile_perm rules now
  refine ⟨canonical, ?_, compile_dropped rules now, fun r => Rule.drop?_isSome_iff, accounted, ?_⟩
  · rw [← canonical.conditions_eq_nil_iff, ← List.length_eq_zero_iff, accounted.length_eq, List.length_eq_zero_iff,
      List.filterMap_eq_nil_iff]
    simp only [Rule.drop?_isSome_iff]
  · rw [← groupIds_eq_eraseDups]
    exact conditions_compile rules now

end CustomerSegments
