import CustomerSegments.Proofs.Keys

namespace CustomerSegments

namespace Memory

/-- The index leads from the names of the live segments, and from no others, to their identifiers. -/
structure Indexed (m : Memory) : Prop where
  exact : ∀ {name id}, m.names.get? name = some id ↔ ∃ s, m.segments.get? id = some s ∧ s.name = name
  tidy : ∀ {id s}, m.segments.get? id = some s → Text.trim s.name = s.name ∧ s.name ≠ ""

/-- Two stores with the same index and the same names under the same identifiers. -/
structure SameNames (m m' : Memory) : Prop where
  index : m'.names = m.names
  live : ∀ id, (m'.segments.get? id).map Segment.name = (m.segments.get? id).map Segment.name

theorem SameNames.refl (m : Memory) : SameNames m m :=
  ⟨rfl, fun _ => rfl⟩

theorem SameNames.of_eq {m m' : Memory} (same : m' = m) : SameNames m m' :=
  same ▸ .refl m

theorem SameNames.trans {m mid m' : Memory} (first : SameNames m mid) (rest : SameNames mid m') : SameNames m m' :=
  ⟨rest.index.trans first.index, fun id => (rest.live id).trans (first.live id)⟩

theorem SameNames.bearer {m m' : Memory} (same : SameNames m m') {id : Uuid} {name : String} :
    (∃ s, m'.segments.get? id = some s ∧ s.name = name) ↔ ∃ s, m.segments.get? id = some s ∧ s.name = name := by
  rw [← Option.map_eq_some_iff, ← Option.map_eq_some_iff, same.live]

theorem sameNames_revise {m : Memory} {id : Uuid} {f : Segment → Segment} (stays : ∀ s, (f s).name = s.name) :
    SameNames m (m.revise id f) := by
  refine ⟨names_revise, fun other => ?_⟩
  rw [get?_revise, Option.map_map]
  congr 1
  funext s
  by_cases same : id = other
  · simp only [Function.comp_apply, if_pos same, stays]
  · simp only [Function.comp_apply, if_neg same]

theorem answer_sameNames {m : Memory} {c : Store.Call} {now : Instant}
    (other : c.method ∉ [.insertSegment, .updateSegment, .deleteSegment]) : SameNames m (answer c now m).2 := by
  have changes := changes c now m
  generalize (answer c now m).2 = m' at changes ⊢
  cases changes with
  | insertSegment free | updateSegment live moved | deleteSegment live => simp [Store.Call.method] at other
  | nothing | insertCustomer c | updateCustomer live | deleteCustomer id | removeSegmentFromAll segment =>
    exact ⟨rfl, fun _ => rfl⟩
  | setAudienceSize id size | incrementAudienceSize id delta => exact sameNames_revise fun s => rfl

namespace Indexed

variable {m : Memory} {id : Uuid} {s old : Segment}

theorem empty : Indexed Memory.empty := by
  constructor
  · intro name id
    simp only [Memory.empty, Table.get?_empty]
    exact ⟨nofun, fun ⟨_, absent, _⟩ => nomatch absent⟩
  · intro id s live
    cases live

theorem of_sameNames {m' : Memory} (indexed : Indexed m) (same : SameNames m m') : Indexed m' := by
  constructor
  · intro name id
    rw [same.index, same.bearer]
    exact indexed.exact
  · intro id s live
    obtain ⟨s', live', named⟩ := same.bearer.1 ⟨s, live, rfl⟩
    rw [← named]
    exact indexed.tidy live'

/-- No two live segments have equal names. -/
theorem unique (indexed : Indexed m) {id' : Uuid} {s' : Segment} (live : m.segments.get? id = some s)
    (live' : m.segments.get? id' = some s') (same : s.name = s'.name) : id = id' := by
  have leads := indexed.exact.2 ⟨s, live, rfl⟩
  have leads' := indexed.exact.2 ⟨s', live', rfl⟩
  rw [same, leads'] at leads
  exact (Option.some.inj leads).symm

theorem free_iff (indexed : Indexed m) {name : String} :
    m.names.get? name = none ↔ ∀ id s, m.segments.get? id = some s → s.name ≠ name := by
  rw [Option.eq_none_iff_forall_ne_some]
  constructor
  · intro free id s live named
    exact free id (indexed.exact.2 ⟨s, live, named⟩)
  · intro free id leads
    obtain ⟨s, live, named⟩ := indexed.exact.1 leads
    exact free id s live named

theorem inserted (indexed : Indexed m) (fresh : m.segments.get? s.id = none) (free : m.names.get? s.name = none)
    (tidy : Text.trim s.name = s.name ∧ s.name ≠ "") :
    Indexed { m with names := m.names.insert s.name s.id, segments := m.segments.insert s.id s } := by
  constructor
  · intro name id
    simp only [Table.get?_insert]
    by_cases own : s.id = id
    · subst own
      by_cases named : s.name = name
      · simp [named]
      · have unborne : m.names.get? name ≠ some s.id := by
          intro leads
          obtain ⟨s', live, _⟩ := indexed.exact.1 leads
          rw [fresh] at live
          cases live
        simp [named, unborne]
    · by_cases named : s.name = name
      · subst named
        have unborne := indexed.free_iff.1 free id
        simp only [if_true, Option.some.injEq, own, if_false, false_iff]
        rintro ⟨s', live, named⟩
        exact unborne s' live named
      · simp only [if_neg named, if_neg own]
        exact indexed.exact
  · intro id s' live
    simp only [Table.get?_insert] at live
    split at live
    · cases live
      exact tidy
    · exact indexed.tidy live

theorem removed (indexed : Indexed m) (live : m.segments.get? id = some s) (customers : Table Uuid Customer) :
    Indexed ⟨customers, m.segments.erase id, m.names.erase s.name⟩ := by
  constructor
  · intro name other
    simp only [Table.get?_erase]
    by_cases own : id = other
    · subst own
      by_cases named : s.name = name
      · simp [named]
      · have unborne : m.names.get? name ≠ some id := by
          intro leads
          obtain ⟨s', live', named'⟩ := indexed.exact.1 leads
          rw [live] at live'
          cases live'
          exact named named'
        simp [named, unborne]
    · by_cases named : s.name = name
      · simp only [if_pos named, if_neg own]
        constructor
        · nofun
        · rintro ⟨s', live', named'⟩
          exact absurd (indexed.unique live live' (named.trans named'.symm)) own
      · simp only [if_neg named, if_neg own]
        exact indexed.exact
  · intro other s' live'
    simp only [Table.get?_erase] at live'
    split at live'
    · cases live'
    · exact indexed.tidy live'

/-- The renamed index is the exact one again: the old name is given up only after the new one is taken. -/
theorem renamed (indexed : Indexed m) {names : Table String Uuid} (live : m.segments.get? id = some old)
    (moved : renamed? id old.name s.name m.names = some names)
    (tidy : Text.trim s.name = s.name ∧ s.name ≠ "") :
    Indexed { m with names := names, segments := m.segments.insert id s } := by
  have tidy' {id' s'} (live' : (m.segments.insert id s).get? id' = some s') :
      Text.trim s'.name = s'.name ∧ s'.name ≠ "" := by
    rw [Table.get?_insert] at live'
    split at live'
    · cases live'
      exact tidy
    · exact indexed.tidy live'
  have former := indexed.exact.2 ⟨old, live, rfl⟩
  refine ⟨fun {name other} => ?_, tidy'⟩
  by_cases own : id = other
  · subst own
    have borne : m.names.get? name = some id → name = old.name := by
      intro leads
      obtain ⟨s', live', named⟩ := indexed.exact.1 leads
      rw [live] at live'
      cases live'
      exact named.symm
    simp only [get?_renamed (fun _ => former) moved, Table.get?_insert, if_true]
    grind
  · rw [renamed_leads_iff former moved own, indexed.exact, Table.get?_insert, if_neg own]

end Indexed

end Memory

namespace Service

open Store

variable {failing : List Method} {w w' : World Memory} {id : Uuid}

theorem recount_sameNames {rules : List Rule} {o : Except Error Segment}
    (ends : Ends failing (Segments.recount id rules) w o w') : w.state.SameNames w'.state := by
  refine Ends.related .refl (fun _ _ _ => .trans) (fun _ _ _ => Memory.answer_sameNames)
    (recount_calls (fun _ => ?_) (fun _ _ => ?_) (fun _ => ?_) _ _) ends
  · simp [Call.method]
  · simp [Call.method]
  · simp [Call.method]

/-- A request whose calls write no definition of a segment leaves all names as they are. -/
theorem serve_sameNames {r : Request}
    (apart : ∀ method ∈ r.footprint, method ∉ [.insertSegment, .updateSegment, .deleteSegment]) :
    w.state.SameNames (serve failing r w).2.state :=
  Ends.related .refl (fun _ _ _ => .trans) (fun _ _ _ => Memory.answer_sameNames)
    (operation_calls fun c member => apart c.method member) (Ends.serve failing r w)

theorem createSegment_indexed {request : NewSegment} {createdBy : String} {o : Except Error Segment}
    (ends : Ends failing (Segments.create request createdBy) w o w') (fresh : w'.issuedIds.Nodup)
    (keyed : w.Keyed) (indexed : w.state.Indexed) : w'.state.Indexed := by
  rcases Segments.create_cases ends with ⟨_, state, _⟩ |
    ⟨filled, free, s, now, mid, rfl, _, issued, state, ends⟩
  · exact state ▸ indexed
  · refine Memory.Indexed.of_sameNames ?_ (recount_sameNames ends)
    rw [state]
    refine indexed.inserted ?_ free ⟨Text.trim_trim _, filled⟩
    have fresh := ends.follows.issuedIds.sublist.nodup fresh
    rw [World.issuedIds, issued, List.map_cons, List.nodup_cons] at fresh
    cases live : w.state.segments.get? (w.supply w.issued.length) with
    | none => exact live
    | some s => exact absurd (keyed.segment live).2 fresh.1

theorem updateSegment_indexed {patch : SegmentPatch} {o : Except Error Segment}
    (ends : Ends failing (Segments.update id patch) w o w') (keyed : w.Keyed) (indexed : w.state.Indexed) :
    w'.state.Indexed := by
  rcases Segments.update_cases (fun _ _ live => (keyed.segment live).1) ends with ⟨idle, _⟩ |
    ⟨s, s', now, names, mid, live, rfl, filled, moved, _, _, state, ends⟩
  · exact idle.state ▸ indexed
  · have replaced : mid.state.Indexed := by
      rw [state]
      refine indexed.renamed live moved ?_
      cases requested : patch.name with
      | none =>
        have tidy := indexed.tidy live
        exact tidy
      | some raw => exact ⟨Text.trim_trim raw, filled raw requested⟩
    split at ends
    · exact replaced.of_sameNames (recount_sameNames ends)
    · exact (Segments.get_cases ends).1.state ▸ replaced

theorem deleteSegment_indexed {o : Except Error Nat} (ends : Ends failing (Segments.delete id) w o w')
    (indexed : w.state.Indexed) : w'.state.Indexed := by
  rcases Segments.delete_cases ends with ⟨idle, _⟩ | ⟨s, now, live, _, _, _, ⟨_, _, state⟩ | ⟨_, state⟩⟩
  · exact idle.state ▸ indexed
  · rw [state]
    exact indexed.removed live _
  · rw [state]
    exact indexed.removed live _

/-- The index stays exact whatever fails while a request is served. -/
theorem serve_indexed (r : Request) (fresh : (serve failing r w).2.issuedIds.Nodup) (keyed : w.Keyed)
    (indexed : w.state.Indexed) : (serve failing r w).2.state.Indexed := by
  cases r with
  | createSegment request createdBy =>
    exact createSegment_indexed (Ends.serve failing (.createSegment request createdBy) w) fresh keyed indexed
  | updateSegment id patch => exact updateSegment_indexed (Ends.serve failing (.updateSegment id patch) w) keyed indexed
  | deleteSegment id => exact deleteSegment_indexed (Ends.serve failing (.deleteSegment id) w) indexed
  | previewAudience rules | listSegments | getSegment id | summarizeSegment id | listCustomers | getCustomer id
  | createCustomer request | importCustomers requests | updateCustomer id patch | deleteCustomer id =>
    exact indexed.of_sameNames (serve_sameNames (by simp [Request.footprint]))

end Service

end CustomerSegments
