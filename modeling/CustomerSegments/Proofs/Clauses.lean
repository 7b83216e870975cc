import CustomerSegments.Rule.Compile
import Mathlib.Data.List.Induction
import Mathlib.Data.List.Nodup

namespace CustomerSegments

/-- The condition of a rule at a reference time; none if the rule is left out. -/
def Rule.condition? (now : Instant) (rule : Rule) : Option Condition :=
  (rule.term.condition now).toOption

/-- The conditions of the rules of one group, or of the single rules, in their order. -/
def conditionsOf (now : Instant) (rules : List Rule) (group : Option String) : List Condition :=
  (rules.filter (·.group? = group)).filterMap (Rule.condition? now)

/-- The rule that founds a group: the first one that carries its id. -/
def founder? (rules : List Rule) (id : String) : Option Rule :=
  rules.find? (·.group? = some id)

/-- The group of an id in a rule list: its founder fixes how it is joined. -/
def groupOf (now : Instant) (rules : List Rule) (id : String) : Group :=
  ⟨id, .ofToken ((founder? rules id).bind (·.connective)), conditionsOf now rules (some id)⟩

/-- Notes the group id of a rule, unless it is known. -/
def noteGroup (ids : List String) (rule : Rule) : List String :=
  match rule.group? with
  | none => ids
  | some id => if id ∈ ids then ids else ids ++ [id]

/-- The group ids of a rule list in the order of their founders. -/
def groupIds (rules : List Rule) : List String :=
  rules.foldl noteGroup []

@[simp]
theorem groupOf_id (now : Instant) (rules : List Rule) (id : String) : (groupOf now rules id).id = id := rfl

theorem mem_conditionsOf {now : Instant} {rules : List Rule} {group : Option String} {c : Condition} :
    c ∈ conditionsOf now rules group ↔ ∃ r ∈ rules, r.group? = group ∧ r.condition? now = some c := by
  simp only [conditionsOf, List.mem_filterMap, List.mem_filter, decide_eq_true_eq]
  constructor
  · rintro ⟨r, ⟨member, carried⟩, kept⟩
    exact ⟨r, member, carried, kept⟩
  · rintro ⟨r, member, carried, kept⟩
    exact ⟨r, ⟨member, carried⟩, kept⟩

theorem conditionsOf_concat (now : Instant) (rules : List Rule) (rule : Rule) (group : Option String) :
    conditionsOf now (rules ++ [rule]) group =
      conditionsOf now rules group ++ if rule.group? = group then (rule.condition? now).toList else [] := by
  simp only [conditionsOf, List.filter_append, List.filterMap_append]
  congr 1
  split
  · rename_i carried
    cases kept : rule.condition? now <;> simp [carried, kept]
  · rename_i other
    simp [other]

theorem mem_noteGroup {ids : List String} {rule : Rule} {id : String} :
    id ∈ noteGroup ids rule ↔ id ∈ ids ∨ rule.group? = some id := by
  unfold noteGroup
  cases rule.group? with
  | none => simp
  | some founded =>
    by_cases known : founded ∈ ids
    · simp only [known, if_true, Option.some.injEq]
      exact ⟨Or.inl, fun h => h.elim (fun old => old) (fun same => same ▸ known)⟩
    · simp only [known, if_false, List.mem_append, List.mem_singleton, Option.some.injEq, eq_comm]

theorem noteGroup_nodup {ids : List String} (distinct : ids.Nodup) (rule : Rule) :
    (noteGroup ids rule).Nodup := by
  unfold noteGroup
  cases rule.group? with
  | none => exact distinct
  | some founded =>
    by_cases known : founded ∈ ids
    · simpa only [known, if_true] using distinct
    · simpa only [known, if_false, List.concat_eq_append] using distinct.concat known

theorem groupIds_concat (rules : List Rule) (rule : Rule) :
    groupIds (rules ++ [rule]) = noteGroup (groupIds rules) rule := by
  simp only [groupIds, List.foldl_append, List.foldl_cons, List.foldl_nil]

theorem mem_groupIds {rules : List Rule} {id : String} :
    id ∈ groupIds rules ↔ ∃ r ∈ rules, r.group? = some id := by
  induction rules using List.reverseRecOn with
  | nil => simp [groupIds]
  | append_singleton rules rule ih =>
    rw [groupIds_concat, mem_noteGroup, ih]
    simp only [List.mem_append, List.mem_singleton, or_and_right, exists_or, exists_eq_left]

theorem groupIds_nodup (rules : List Rule) : (groupIds rules).Nodup := by
  induction rules using List.reverseRecOn with
  | nil => exact .nil
  | append_singleton rules rule ih =>
    rw [groupIds_concat]
    exact noteGroup_nodup ih rule

/-- A later rule founds a group only if no earlier one carries its id. -/
theorem founder?_concat (rules : List Rule) (rule : Rule) (id : String) :
    founder? (rules ++ [rule]) id =
      (founder? rules id).or (if rule.group? = some id then some rule else none) := by
  simp only [founder?, List.find?_append]
  congr 1
  by_cases carried : rule.group? = some id <;> simp [carried]

theorem founder?_isSome {rules : List Rule} {id : String} :
    (founder? rules id).isSome ↔ id ∈ groupIds rules := by
  rw [mem_groupIds, founder?, List.find?_isSome]
  simp only [decide_eq_true_eq]

theorem groupOf_concat_of_ne {now : Instant} {rules : List Rule} {rule : Rule} {id : String}
    (other : rule.group? ≠ some id) : groupOf now (rules ++ [rule]) id = groupOf now rules id := by
  simp only [groupOf, founder?_concat, conditionsOf_concat, other, if_false, Option.or_none, List.append_nil]

theorem groupOf_concat_of_mem {now : Instant} {rules : List Rule} {rule : Rule} {id : String}
    (carried : rule.group? = some id) (known : id ∈ groupIds rules) :
    groupOf now (rules ++ [rule]) id =
      { groupOf now rules id with
        conditions := (groupOf now rules id).conditions ++ (rule.condition? now).toList } := by
  obtain ⟨founder, found⟩ := Option.isSome_iff_exists.mp (founder?_isSome.mpr known)
  simp only [groupOf, founder?_concat, conditionsOf_concat, carried, if_true, found, Option.some_or]

theorem groupOf_concat_of_not_mem {now : Instant} {rules : List Rule} {rule : Rule} {id : String}
    (carried : rule.group? = some id) (new : id ∉ groupIds rules) :
    groupOf now (rules ++ [rule]) id = ⟨id, .ofToken rule.connective, (rule.condition? now).toList⟩ := by
  have unfounded : founder? rules id = none := by
    rw [← Option.not_isSome_iff_eq_none, founder?_isSome]
    exact new
  have nothing : conditionsOf now rules (some id) = [] := by
    refine List.eq_nil_iff_forall_not_mem.mpr fun c member => new ?_
    obtain ⟨r, inRules, same, _⟩ := mem_conditionsOf.mp member
    exact mem_groupIds.mpr ⟨r, inRules, same⟩
  simp only [groupOf, founder?_concat, conditionsOf_concat, carried, if_true, unfounded, nothing,
    Option.none_or, Option.bind_some, List.nil_append]

namespace Clauses

theorem addToGroup_of_not_mem {id : String} {connective : Connective} {conditions : List Condition}
    {groups : List Group} (new : id ∉ groups.map (·.id)) :
    addToGroup id connective conditions groups = groups ++ [⟨id, connective, conditions⟩] := by
  induction groups with
  | nil => rfl
  | cons g gs ih =>
    simp only [List.map_cons, List.mem_cons, not_or] at new
    simp only [addToGroup, if_neg (Ne.symm new.1), ih new.2, List.cons_append]

/-- A group that is there keeps its place and how it is joined. -/
theorem addToGroup_of_mem {id : String} {connective : Connective} {conditions : List Condition}
    {groups : List Group} (known : id ∈ groups.map (·.id)) (distinct : (groups.map (·.id)).Nodup) :
    addToGroup id connective conditions groups =
      groups.map fun g => if g.id = id then { g with conditions := g.conditions ++ conditions } else g := by
  induction groups with
  | nil => simp at known
  | cons g gs ih =>
    rw [List.map_cons, List.nodup_cons] at distinct
    by_cases same : g.id = id
    · have rest : ∀ h ∈ gs, h.id ≠ id := fun h member other =>
        distinct.1 (List.mem_map.mpr ⟨h, member, other.trans same.symm⟩)
      have unchanged : gs.map (fun h => if h.id = id then { h with conditions := h.conditions ++ conditions } else h) = gs := by
        rw [List.map_congr_left (g := fun h => h) fun h member => if_neg (rest h member), List.map_id']
      simp only [addToGroup, same, if_true, List.map_cons, unchanged]
    · have inTail : id ∈ gs.map (·.id) := by
        rcases List.mem_cons.mp known with head | tail
        · exact absurd head.symm same
        · exact tail
      simp only [addToGroup, same, if_false, List.map_cons, ih inTail distinct.2]

/-- The clauses of a rule list, said without going through it. -/
def ofRules (now : Instant) (rules : List Rule) : Clauses :=
  ⟨conditionsOf now rules none, (groupIds rules).map (groupOf now rules)⟩

theorem map_id_groups (now : Instant) (rules : List Rule) (ids : List String) :
    (ids.map (groupOf now rules)).map (·.id) = ids := by
  rw [List.map_map]
  exact List.map_id' ids

/-- A rule changes the clauses of the rules before it at its own group only. -/
theorem ofRules_concat (now : Instant) (rules : List Rule) (rule : Rule) :
    ofRules now (rules ++ [rule]) = (ofRules now rules).add rule (rule.condition? now) := by
  have ids := map_id_groups now rules (groupIds rules)
  cases carried : rule.group? with
  | none =>
    have kept : ∀ id ∈ groupIds rules, groupOf now (rules ++ [rule]) id = groupOf now rules id :=
      fun id _ => groupOf_concat_of_ne (by simp [carried])
    simp only [ofRules, add, carried, conditionsOf_concat, if_true, groupIds_concat, noteGroup]
    rw [List.map_congr_left kept]
  | some id =>
    have single : conditionsOf now (rules ++ [rule]) none = conditionsOf now rules none := by
      simp [conditionsOf_concat, carried]
    simp only [ofRules, add, carried, single, groupIds_concat, noteGroup]
    congr 1
    by_cases known : id ∈ groupIds rules
    · rw [addToGroup_of_mem (by rwa [ids]) (by rw [ids]; exact groupIds_nodup rules), if_pos known, List.map_map]
      refine List.map_congr_left fun other member => ?_
      by_cases same : other = id
      · subst same
        rw [groupOf_concat_of_mem carried known, Function.comp_apply, groupOf_id, if_pos rfl]
        rfl
      · have apart : rule.group? ≠ some other := by simp [carried, Ne.symm same]
        rw [groupOf_concat_of_ne apart, Function.comp_apply, groupOf_id, if_neg same]
    · rw [addToGroup_of_not_mem (by rwa [ids]), if_neg known, List.map_append]
      congr 1
      · refine List.map_congr_left fun other member => groupOf_concat_of_ne ?_
        rw [carried]
        rintro ⟨rfl⟩
        exact known member
      · simp [groupOf_concat_of_not_mem carried known]

end Clauses

theorem compile_concat (rules : List Rule) (rule : Rule) (now : Instant) :
    compile (rules ++ [rule]) now = (compile rules now).add now rule := by
  simp only [compile, List.foldl_append, List.foldl_cons, List.foldl_nil]

/-- What one pass over a rule list collects. -/
theorem compile_clauses (rules : List Rule) (now : Instant) :
    (compile rules now).clauses = .ofRules now rules := by
  induction rules using List.reverseRecOn with
  | nil => rfl
  | append_singleton rules rule ih =>
    rw [compile_concat, Clauses.ofRules_concat, ← ih, Compilation.add, Rule.condition?]
    cases rule.term.condition now <;> rfl

end CustomerSegments
