import CustomerSegments.Json.Basic

namespace CustomerSegments.Json

/-- Members in the order of their names, each name once. -/
abbrev InOrder (members : List (String × Json)) : Prop :=
  members.Pairwise fun a b => a.1 < b.1

theorem lt_of_not_lt_of_ne {a b : String} (after : ¬ a < b) (other : a ≠ b) : b < a :=
  Classical.byContradiction fun before =>
    other (String.le_antisymm (String.not_lt.1 before) (String.not_lt.1 after))

variable {name : String} {value : Json} {members done : List (String × Json)}

theorem lookup_cons_eq (m : String × Json) (rest : List (String × Json)) (key : String) :
    (m :: rest).lookup key = if key = m.1 then some m.2 else rest.lookup key := by
  rw [List.lookup_cons]
  by_cases same : key = m.1
  · rw [if_pos same, beq_iff_eq.2 same]
  · rw [if_neg same, beq_eq_false_iff_ne.2 same]

theorem lookup_eq_none (absent : name ∉ members.map (·.1)) : members.lookup name = none := by
  rw [List.lookup_eq_none_iff]
  intro m mem
  rw [bne_iff_ne]
  exact fun same => absent (List.mem_map.2 ⟨m, mem, same.symm⟩)

theorem lookup_of_mem {m : String × Json} (distinct : (members.map (·.1)).Nodup) (mem : m ∈ members) :
    members.lookup m.1 = some m.2 := by
  induction members with
  | nil => cases mem
  | cons a rest ih =>
    obtain ⟨new, others⟩ := List.nodup_cons.1 distinct
    rw [lookup_cons_eq]
    rcases List.mem_cons.1 mem with rfl | mem
    · rw [if_pos rfl]
    · have apart : m.1 ≠ a.1 := fun same => new (List.mem_map.2 ⟨m, mem, same⟩)
      rw [if_neg apart, ih others mem]

theorem mem_of_lookup (found : members.lookup name = some value) : (name, value) ∈ members := by
  obtain ⟨front, back, rfl, _⟩ := List.lookup_eq_some_iff.1 found
  exact List.mem_append_right _ List.mem_cons_self

/-- Members of different names are found in whatever order they stand. -/
theorem lookup_perm {given : List (String × Json)} (same : given.Perm members) (distinct : (members.map (·.1)).Nodup)
    (key : String) : given.lookup key = members.lookup key := by
  cases found : members.lookup key with
  | some value => exact lookup_of_mem ((same.map _).nodup_iff.2 distinct) (same.mem_iff.2 (mem_of_lookup found))
  | none =>
    rw [List.lookup_eq_none_iff] at found ⊢
    exact fun m mem => found m (same.mem_iff.1 mem)

theorem mem_putMember {m : String × Json} (mem : m ∈ putMember name value members) :
    m = (name, value) ∨ m ∈ members := by
  induction members with
  | nil => exact .inl (List.mem_singleton.1 mem)
  | cons a rest ih =>
    obtain ⟨k, v⟩ := a
    simp only [putMember] at mem
    split at mem
    · exact List.mem_cons.1 mem
    · split at mem
      · rcases List.mem_cons.1 mem with new | old
        · exact .inl new
        · exact .inr (List.mem_cons_of_mem _ old)
      · rcases List.mem_cons.1 mem with first | later
        · exact .inr (first ▸ List.mem_cons_self)
        · rcases ih later with new | old
          · exact .inl new
          · exact .inr (List.mem_cons_of_mem _ old)

theorem putMember_perm (new : name ∉ members.map (·.1)) :
    (putMember name value members).Perm ((name, value) :: members) := by
  induction members with
  | nil => exact .refl _
  | cons a rest ih =>
    obtain ⟨k, v⟩ := a
    obtain ⟨apart, others⟩ := not_or.1 (mt List.mem_cons.2 new)
    have other : name ≠ k := apart
    rw [putMember]
    by_cases before : name < k
    · rw [if_pos before]
    · rw [if_neg before, if_neg other]
      exact ((ih others).cons _).trans (.swap _ _ _)

theorem inOrder_putMember (sorted : InOrder members) : InOrder (putMember name value members) := by
  induction members with
  | nil => exact List.pairwise_singleton _ _
  | cons a rest ih =>
    obtain ⟨k, v⟩ := a
    obtain ⟨first, others⟩ := List.pairwise_cons.1 sorted
    simp only [putMember]
    split
    · next before =>
      refine List.pairwise_cons.2 ⟨?_, sorted⟩
      intro m mem
      rcases List.mem_cons.1 mem with rfl | mem
      · exact before
      · exact String.lt_trans before (first m mem)
    · next after =>
      split
      · next same =>
        subst same
        exact List.pairwise_cons.2 ⟨first, others⟩
      · next other =>
        refine List.pairwise_cons.2 ⟨?_, ih others⟩
        intro m mem
        rcases mem_putMember mem with rfl | mem
        · exact lt_of_not_lt_of_ne after other
        · exact first m mem

theorem inOrder_ofMembers (members : List (String × Json)) : InOrder (ofMembers members) := by
  suffices step : ∀ done, InOrder done →
      InOrder (members.foldl (fun done m => putMember m.1 m.2 done) done) from step [] .nil
  induction members with
  | nil => exact fun _ sorted => sorted
  | cons m rest ih => exact fun done sorted => ih _ (inOrder_putMember sorted)

theorem mem_ofMembers {m : String × Json} (mem : m ∈ ofMembers members) : m ∈ members := by
  suffices step : ∀ done, m ∈ members.foldl (fun done m => putMember m.1 m.2 done) done →
      m ∈ done ∨ m ∈ members by
    rcases step [] mem with none | mem
    · cases none
    · exact mem
  clear mem
  induction members with
  | nil => exact fun _ mem => .inl mem
  | cons a rest ih =>
    intro done mem
    rcases ih _ mem with put | later
    · rcases mem_putMember put with rfl | old
      · exact .inr List.mem_cons_self
      · exact .inl old
    · exact .inr (List.mem_cons_of_mem _ later)

/-- Members of different names are only put into another order. -/
theorem ofMembers_perm (distinct : (members.map (·.1)).Nodup) : (ofMembers members).Perm members := by
  suffices step : ∀ done, (done ++ members).map (·.1) |>.Nodup →
      (members.foldl (fun done m => putMember m.1 m.2 done) done).Perm (done ++ members) from step [] distinct
  clear distinct
  induction members with
  | nil => exact fun done _ => .of_eq (List.append_nil done).symm
  | cons m rest ih =>
    intro done distinct
    have moved : (done ++ m :: rest).Perm (m :: done ++ rest) := List.perm_middle
    have new : m.1 ∉ done.map (·.1) := by
      have apart : m.1 ∉ (done ++ rest).map (·.1) := (List.nodup_cons.1 ((moved.map _).nodup_iff.1 distinct)).1
      rw [List.map_append] at apart
      exact fun mem => apart (List.mem_append_left _ mem)
    have put : (putMember m.1 m.2 done ++ rest).Perm (m :: done ++ rest) := (putMember_perm new).append_right rest
    have placed := put.trans moved.symm
    exact (ih _ ((placed.map _).nodup_iff.2 distinct)).trans placed

/-- Members of different names keep their values. -/
theorem lookup_ofMembers (distinct : (members.map (·.1)).Nodup) (key : String) :
    (ofMembers members).lookup key = members.lookup key :=
  lookup_perm (ofMembers_perm distinct) distinct key

theorem InOrder.nodup (sorted : InOrder members) : (members.map (·.1)).Nodup := by
  rw [List.Nodup, List.pairwise_map]
  exact sorted.imp fun before => String.ne_of_lt before

/-- Members come to the same order from any other one. -/
theorem ofMembers_of_perm {given : List (String × Json)} (same : given.Perm members) (sorted : InOrder members) :
    ofMembers given = members := by
  have distinct := (same.map (·.1)).nodup_iff.2 sorted.nodup
  refine List.Perm.eq_of_pairwise (fun a b _ _ before after => ?_) (inOrder_ofMembers given) sorted
    ((ofMembers_perm distinct).trans same)
  exact absurd after (String.lt_asymm before)

/-- Members in order stay as they are. -/
theorem ofMembers_of_inOrder (sorted : InOrder members) : ofMembers members = members :=
  ofMembers_of_perm (.refl _) sorted

end CustomerSegments.Json
