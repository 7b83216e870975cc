import CustomerSegments.Proofs.RedisSegments

namespace CustomerSegments.Redis

/-- Every row of the sizes is read, each as the size it was written for. -/
theorem mapM_size {rows : List (String × String)} (texts : ∀ e ∈ rows, ∃ g, e.2 = sizeText g) :
    ∃ sizes : List (String × Int64),
      (rows.mapM fun (id, text) => do .ok (id, ← size? text) : Except Error _) = .ok sizes ∧
      ∀ {x g}, rows.lookup x = some (sizeText g) → sizes.lookup x = some g.audienceSize := by
  induction rows with
  | nil => exact ⟨[], rfl, nofun⟩
  | cons row rest ih =>
    obtain ⟨x, text⟩ := row
    obtain ⟨g, same⟩ := texts _ List.mem_cons_self
    obtain ⟨sizes, read, lookup⟩ := ih fun e mem => texts e (List.mem_cons_of_mem _ mem)
    dsimp only at same
    subst same
    refine ⟨(x, g.audienceSize) :: sizes, ?_, fun {x' g'} found => ?_⟩
    · rw [List.mapM_cons, read]
      dsimp only
      rw [size?_sizeText]
      rfl
    · rw [List.lookup_cons] at found ⊢
      split at found
      · have read' := size?_sizeText g'
        rw [← Option.some.inj found, size?_sizeText] at read'
        rw [Except.ok.inj read']
      · exact lookup found

theorem map_filterMap {α β : Type} {f : α → β} {records : Uuid → Option α} {value : Segment → β}
    {entries : List (Uuid × Segment)} (each : ∀ e ∈ entries, ∃ a, records e.1 = some a ∧ f a = value e.2) :
    ((entries.map (·.1)).filterMap records).map f = entries.map fun e => value e.2 := by
  induction entries with
  | nil => rfl
  | cons e rest ih =>
    obtain ⟨a, found, same⟩ := each e List.mem_cons_self
    rw [List.map_cons, List.filterMap_cons_some found, List.map_cons, same,
      ih fun e mem => each e (List.mem_cons_of_mem _ mem), List.map_cons]

variable {l : Layout} {s : Server} {t : Table Uuid Segment} {names : Table String Uuid}

/-- Every segment is listed once, with the size that is kept apart from its record. -/
theorem HoldsSegments.listSegments (holds : HoldsSegments l s t names) :
    ∃ listed, Settles l.listSegments s (.ok (Store.newestFirst Segment.createdAt listed)) s ∧
      (listed.map Segment.undated).Perm (t.values.map Segment.undated) := by
  obtain ⟨ids, known, idsText⟩ := holds.ids
  obtain ⟨rows, stored, rowsText⟩ := holds.sizes
  obtain ⟨records, loads⟩ := Classical.axiomOfChoice holds.loads
  obtain ⟨loaded, load, all⟩ := loadAll_table (l := l) known idsText fun id => (loads id).1
  have texts : ∀ e ∈ rows.entries, ∃ g, e.2 = sizeText g := by
    rintro ⟨x, text⟩ mem
    obtain ⟨id, g, _, _, same⟩ := rowsText.mem_entries_iff.1 mem
    exact ⟨g, same⟩
  obtain ⟨sizes, read, lookup⟩ := mapM_size texts
  have sized : ∀ e ∈ t.entries, ∃ r, records e.1 = some r ∧
      ({ r with audienceSize := (sizes.lookup r.id.text).getD 0 } : Segment).undated = e.2.undated := by
    rintro ⟨id, g⟩ mem
    have live := Table.get?_eq_some_iff.2 mem
    have same := (loads id).2
    have row := rowsText.get?_text id
    rw [live, Option.map_some, ← Table.lookup_entries] at row
    rw [live] at same
    cases found : records id with
    | none =>
      rw [found] at same
      exact same.elim
    | some r =>
      rw [found] at same
      have own : r.id = id := by
        rw [← holds.keyed live, same.2]
      have size : (sizes.lookup r.id.text).getD 0 = g.audienceSize := by
        rw [own, lookup row, Option.getD_some]
      refine ⟨r, rfl, ?_⟩
      rw [size]
      exact RecordOf.undated same
  refine ⟨_, load.bind ((Settles.hgetall stored).bind ((Settles.settled read).bind (.pure _))), ?_⟩
  have listed := all.map fun r => ({ r with audienceSize := (sizes.lookup r.id.text).getD 0 } : Segment).undated
  rw [Table.keys, map_filterMap sized] at listed
  rw [List.map_map, Table.values, List.map_map]
  exact listed

end CustomerSegments.Redis
