import CustomerSegments.Store.Table

namespace CustomerSegments.Table

variable {κ ν : Type} [Ord κ] [Std.TransOrd κ] [Std.LawfulEqOrd κ] [DecidableEq κ] {t : Table κ ν} {key : κ}
  {value old : ν} {p : ν → Bool}

omit [Std.TransOrd κ] [DecidableEq κ] in
theorem nodup_entries (t : Table κ ν) : t.entries.Nodup := by
  refine List.Pairwise.imp (fun {a b} before same => ?_) t.sorted
  subst same
  exact Ordering.noConfusion (before.symm.trans Std.ReflOrd.compare_self)

omit [Std.TransOrd κ] [DecidableEq κ] in
theorem nodup_keys (t : Table κ ν) : t.keys.Nodup := by
  rw [keys, List.Nodup, List.pairwise_map]
  refine t.sorted.imp fun {a b} before same => ?_
  rw [same] at before
  exact Ordering.noConfusion (before.symm.trans Std.ReflOrd.compare_self)

omit [Std.TransOrd κ] [DecidableEq κ] in
theorem mem_values_iff {v : ν} : v ∈ t.values ↔ ∃ key, t.get? key = some v := by
  rw [values, List.mem_map]
  constructor
  · rintro ⟨⟨key, v⟩, mem, rfl⟩
    exact ⟨key, get?_eq_some_iff.2 mem⟩
  · rintro ⟨key, found⟩
    exact ⟨(key, v), get?_eq_some_iff.1 found, rfl⟩

/-- A table with an entry put in has that entry and those of the other keys. -/
theorem insert_perm (t : Table κ ν) (key : κ) (value : ν) :
    (t.insert key value).entries.Perm ((key, value) :: (t.erase key).entries) := by
  have apart : (key, value) ∉ (t.erase key).entries := by
    rw [← get?_eq_some_iff, get?_erase, if_pos rfl]
    nofun
  rw [List.perm_ext_iff_of_nodup (nodup_entries _) (List.nodup_cons.2 ⟨apart, nodup_entries _⟩)]
  rintro ⟨k, v⟩
  rw [List.mem_cons, ← get?_eq_some_iff, ← get?_eq_some_iff, get?_insert, get?_erase, Prod.mk.injEq]
  by_cases same : key = k
  · simp [same, eq_comm]
  · simp [same, Ne.symm same]

theorem insert_of_get?_eq_some (live : t.get? key = some value) : t.insert key value = t := by
  ext1 other
  rw [get?_insert]
  split
  · next same => rw [← same, live]
  · rfl

theorem insert_insert (t : Table κ ν) (key : κ) (first last : ν) :
    (t.insert key first).insert key last = t.insert key last := by
  ext1 other
  rw [get?_insert, get?_insert, get?_insert]
  split <;> rfl

theorem countP_insert (t : Table κ ν) (key : κ) (value : ν) :
    (t.insert key value).values.countP p = (t.erase key).values.countP p + if p value then 1 else 0 := by
  have counted := ((insert_perm t key value).map Prod.snd).countP_eq p
  rwa [List.map_cons, List.countP_cons] at counted

theorem countP_insert_of_absent (absent : t.get? key = none) :
    (t.insert key value).values.countP p = t.values.countP p + if p value then 1 else 0 := by
  rw [countP_insert, erase_of_get?_eq_none absent]

theorem countP_erase_of_live (live : t.get? key = some value) :
    t.values.countP p = (t.erase key).values.countP p + if p value then 1 else 0 := by
  rw [← countP_insert, insert_of_get?_eq_some live]

omit [Std.TransOrd κ] [Std.LawfulEqOrd κ] [DecidableEq κ] in
theorem values_map {μ : Type} (t : Table κ ν) (f : ν → μ) : (t.map f).values = t.values.map f := by
  rw [values, values, map, List.map_map, List.map_map]
  rfl

theorem map_insert {μ : Type} (t : Table κ ν) (f : ν → μ) (key : κ) (value : ν) :
    (t.insert key value).map f = (t.map f).insert key (f value) := by
  ext1 other
  rw [get?_map, get?_insert, get?_insert, get?_map]
  split <;> rfl

theorem map_erase {μ : Type} (t : Table κ ν) (f : ν → μ) (key : κ) : (t.erase key).map f = (t.map f).erase key := by
  ext1 other
  rw [get?_map, get?_erase, get?_erase, get?_map]
  split <;> rfl

theorem lookup_entries (t : Table String ν) (key : String) : t.entries.lookup key = t.get? key := by
  obtain ⟨entries, sorted⟩ := t
  rw [get?]
  dsimp only
  clear sorted
  induction entries with
  | nil => rfl
  | cons e rest ih =>
    rw [List.lookup_cons, List.find?_cons]
    by_cases same : e.1 = key
    · subst same
      simp
    · have other : (compare e.1 key == Ordering.eq) = false := by simpa using same
      rw [other, beq_false_of_ne (Ne.symm same)]
      exact ih

end CustomerSegments.Table
