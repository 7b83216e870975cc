import CustomerSegments.Proofs.NameIndex

namespace CustomerSegments.Service

open Store

variable {failing : List Method} {w w' : World Memory} {id : Uuid} {s : Segment}

theorem recount_accepted {rules : List Rule} {o : Except Error Segment} (live : w.state.segments.get? id ≠ none)
    (ends : Ends [] (Segments.recount id rules) w o w') : o.isOk = true := by
  rcases Segments.recount_cases ends with ⟨_, failed | gone, _⟩ | ⟨_, _, _, _, _, failed | ⟨s', rfl, _⟩⟩
  · exact absurd rfl failed
  · exact absurd gone live
  · exact absurd rfl failed
  · rfl

/-- With a store that answers, only a blank name and a name in use are refused. -/
theorem createSegment_accepted_iff (indexed : w.state.Indexed) (request : NewSegment) (createdBy : String) :
    (serve [] (.createSegment request createdBy) w).1.isOk = true ↔
      Text.trim request.name ≠ "" ∧ ∀ id s, w.state.segments.get? id = some s → s.name ≠ Text.trim request.name := by
  rw [← indexed.free_iff]
  rcases Segments.create_cases (Ends.serve [] (.createSegment request createdBy) w) with
    ⟨_, _, ⟨e, refused⟩, reason⟩ | ⟨filled, free, s, now, mid, rfl, _, _, state, ends⟩
  · rw [show (serve [] (.createSegment request createdBy) w).1 = .error e from refused]
    refine iff_of_false Bool.false_ne_true ?_
    rintro ⟨filled, free⟩
    rcases reason with failed | blank | taken
    · exact failed rfl
    · exact filled blank
    · rw [free] at taken
      cases taken
  · refine iff_of_true (recount_accepted ?_ ends) ⟨filled, free⟩
    rw [state, Table.get?_insert, if_pos rfl]
    exact Option.some_ne_none _

/-- With a store that answers, a live segment is refused only a blank name and a name that another one has. -/
theorem updateSegment_accepted_iff (keyed : w.Keyed) (indexed : w.state.Indexed)
    (live : w.state.segments.get? id = some s) {patch : SegmentPatch} {raw : String}
    (requested : patch.name = some raw) :
    (serve [] (.updateSegment id patch) w).1.isOk = true ↔
      Text.trim raw ≠ "" ∧
        ∀ other t, w.state.segments.get? other = some t → other ≠ id → t.name ≠ Text.trim raw := by
  rcases Segments.update_cases (fun _ _ live => (keyed.segment live).1)
    (Ends.serve [] (.updateSegment id patch) w) with
    ⟨_, ⟨e, refused⟩, reason⟩ | ⟨s, s', now, names, mid, live', rfl, filled, moved, _, _, state, ends⟩
  · rw [show (serve [] (.updateSegment id patch) w).1 = .error e from refused]
    refine iff_of_false Bool.false_ne_true ?_
    rintro ⟨filled, free⟩
    rcases reason with failed | gone | ⟨raw', same, blank | ⟨owner, leads, other⟩⟩
    · exact failed rfl
    · rw [live] at gone
      cases gone
    · rw [requested] at same
      cases same
      exact filled blank
    · rw [requested] at same
      cases same
      obtain ⟨t, live', named⟩ := indexed.exact.1 leads
      exact free owner t live' other named
  · rw [live] at live'
    cases live'
    have replaced : mid.state.segments.get? id ≠ none := by
      rw [state, Table.get?_insert, if_pos rfl]
      exact Option.some_ne_none _
    refine iff_of_true ?_ ⟨filled raw requested, ?_⟩
    · split at ends
      · exact recount_accepted replaced ends
      · obtain ⟨_, ⟨_, failed⟩ | ⟨_, gone⟩ | ⟨t, read, _⟩⟩ := Segments.get_cases ends
        · cases failed
        · exact absurd gone replaced
        · rw [read]
          rfl
    · intro other t live' different named
      simp only [requested, Option.map_some, Option.getD_some] at moved
      by_cases kept : s.name = Text.trim raw
      · exact different (indexed.unique live' live (named.trans kept.symm))
      · have taken := Memory.renamed?_eq_none_iff.2 ⟨kept, other, indexed.exact.2 ⟨t, live', named⟩, different⟩
        rw [taken] at moved
        cases moved

/-- A name that a request takes from its bearer is nobody's afterwards. -/
theorem serve_frees (r : Request) (fresh : (serve failing r w).2.issuedIds.Nodup) (keyed : w.Keyed)
    (live : w.state.segments.get? id = some s)
    (given : ∀ s', (serve failing r w).2.state.segments.get? id = some s' → s'.name ≠ s.name) :
    (serve failing r w).2.state.names.get? s.name = none := by
  have lost {m : Memory} (same : m.SameNames (serve failing r w).2.state) (s' : Segment)
      (borne : m.segments.get? id = some s') : s'.name ≠ s.name := by
    intro named
    obtain ⟨t, live', named'⟩ := same.bearer.2 ⟨s', borne, rfl⟩
    exact given t live' (named'.trans named)
  cases r with
  | createSegment request createdBy =>
    rcases Segments.create_cases (Ends.serve failing (.createSegment request createdBy) w) with
      ⟨_, state, _⟩ | ⟨_, _, t, now, mid, rfl, follows, issued, state, ends⟩
    · exact absurd rfl (lost (.of_eq state) s live)
    · have fresh := ends.follows.issuedIds.sublist.nodup fresh
      rw [World.issuedIds, issued, List.map_cons, List.nodup_cons] at fresh
      refine absurd rfl (lost (recount_sameNames ends) s ?_)
      rw [state, Table.get?_insert, if_neg]
      · exact live
      · rintro rfl
        exact fresh.1 (keyed.segment live).2
  | updateSegment target patch =>
    rcases Segments.update_cases (fun _ _ live => (keyed.segment live).1)
      (Ends.serve failing (.updateSegment target patch) w) with
      ⟨idle, _⟩ | ⟨old, s', now, names, mid, live', _, _, moved, _, _, state, ends⟩
    · exact absurd rfl (lost (.of_eq idle.state) s live)
    · have same : mid.state.SameNames (serve failing (.updateSegment target patch) w).2.state := by
        split at ends
        · exact recount_sameNames ends
        · exact .of_eq (Segments.get_cases ends).1.state
      by_cases own : target = id
      · subst own
        rw [live] at live'
        cases live'
        have changed : s'.name ≠ s.name := by
          refine lost same s' ?_
          rw [state, Table.get?_insert, if_pos rfl]
        rw [same.index, state, Memory.get?_renamed (fun same => absurd same.symm changed) moved, if_neg changed.symm,
          if_pos rfl]
      · refine absurd rfl (lost same s ?_)
        rw [state, Table.get?_insert, if_neg own]
        exact live
  | deleteSegment target =>
    rcases Segments.delete_cases (Ends.serve failing (.deleteSegment target) w) with
      ⟨idle, _⟩ | ⟨old, now, live', _, _, _, outcome⟩
    · exact absurd rfl (lost (.of_eq idle.state) s live)
    · have remaining : (serve failing (.deleteSegment target) w).2.state.segments = w.state.segments.erase target ∧
          (serve failing (.deleteSegment target) w).2.state.names = w.state.names.erase old.name := by
        rcases outcome with ⟨_, _, state⟩ | ⟨_, state⟩ <;> rw [state] <;> exact ⟨rfl, rfl⟩
      by_cases own : target = id
      · subst own
        rw [live] at live'
        cases live'
        rw [remaining.2, Table.get?_erase, if_pos rfl]
      · refine absurd rfl (given s ?_)
        rw [remaining.1, Table.get?_erase, if_neg own]
        exact live
  | previewAudience rules | listSegments | getSegment other | summarizeSegment other | listCustomers | getCustomer other
  | createCustomer request | importCustomers requests | updateCustomer other patch | deleteCustomer other =>
    exact absurd rfl (lost (serve_sameNames (by simp [Request.footprint])) s live)

/-- The index stays exact over every run with identifiers that do not repeat, whatever fails during it. -/
theorem serveAll_indexed (steps : List Step) (fresh : (serveAll steps w).issuedIds.Nodup) (keyed : w.Keyed)
    (indexed : w.state.Indexed) : (serveAll steps w).state.Indexed := by
  induction steps generalizing w with
  | nil => exact indexed
  | cons step rest ih =>
    have sooner := (serveAll_follows rest (serve step.failing step.request w).2).issuedIds.sublist.nodup fresh
    exact ih fresh (serve_keyed step.request keyed) (serve_indexed step.request sooner keyed indexed)

/-- The index of a store that was empty at first holds the names of the live segments and no others; these
are trimmed, not empty, and differ from each other. A segment is created or renamed unless its name is
blank or that of another live segment, and a name that was given up can be used again. -/
theorem segment_names_unique {clock : Nat → Instant} {supply : Nat → Uuid} (steps : List Step)
    (fresh : (serveAll steps (.start .empty clock supply)).issuedIds.Nodup) :
    let w := serveAll steps (.start .empty clock supply)
    (∀ name id, w.state.names.get? name = some id ↔
        ∃ s, w.state.segments.get? id = some s ∧ s.id = id ∧ s.name = name) ∧
      (∀ id id' s s', w.state.segments.get? id = some s → w.state.segments.get? id' = some s' →
        s.name = s'.name → id = id') ∧
      (∀ id s, w.state.segments.get? id = some s → Text.trim s.name = s.name ∧ s.name ≠ "") ∧
      (∀ request createdBy, (serve [] (.createSegment request createdBy) w).1.isOk = true ↔
        Text.trim request.name ≠ "" ∧
          ∀ id s, w.state.segments.get? id = some s → s.name ≠ Text.trim request.name) ∧
      (∀ id s patch raw, w.state.segments.get? id = some s → patch.name = some raw →
        ((serve [] (.updateSegment id patch) w).1.isOk = true ↔
          Text.trim raw ≠ "" ∧
            ∀ other t, w.state.segments.get? other = some t → other ≠ id → t.name ≠ Text.trim raw)) ∧
      ∀ step : Step,
        let w' := (serve step.failing step.request w).2
        w'.issuedIds.Nodup → ∀ id s, w.state.segments.get? id = some s →
          (∀ s', w'.state.segments.get? id = some s' → s'.name ≠ s.name) →
          (∀ request createdBy, Text.trim request.name = s.name →
            (serve [] (.createSegment request createdBy) w').1.isOk = true) ∧
          ∀ other t patch raw, w'.state.segments.get? other = some t → patch.name = some raw →
            Text.trim raw = s.name → (serve [] (.updateSegment other patch) w').1.isOk = true := by
  intro w
  have keyed : w.Keyed := serveAll_keyed steps .empty
  have indexed : w.state.Indexed := serveAll_indexed steps fresh .empty .empty
  refine ⟨?_, fun _ _ _ _ live live' same => indexed.unique live live' same, fun _ _ live => indexed.tidy live,
    createSegment_accepted_iff indexed, ?_, ?_⟩
  · intro name id
    rw [indexed.exact]
    constructor
    · rintro ⟨s, live, named⟩
      exact ⟨s, live, (keyed.segment live).1, named⟩
    · rintro ⟨s, live, _, named⟩
      exact ⟨s, live, named⟩
  · intro id s patch raw live requested
    exact updateSegment_accepted_iff keyed indexed live requested
  · intro step w' fresh' id s live given
    have keyed' : w'.Keyed := serve_keyed step.request keyed
    have indexed' : w'.state.Indexed := serve_indexed step.request fresh' keyed indexed
    have free : ∀ other t, w'.state.segments.get? other = some t → t.name ≠ s.name :=
      indexed'.free_iff.1 (serve_frees step.request fresh' keyed live given)
    have tidy := indexed.tidy live
    constructor
    · intro request createdBy named
      refine (createSegment_accepted_iff indexed' request createdBy).2 ⟨named ▸ tidy.2, ?_⟩
      exact named ▸ free
    · intro other t patch raw live' requested named
      refine (updateSegment_accepted_iff keyed' indexed' live' requested).2 ⟨named ▸ tidy.2, ?_⟩
      exact fun id t live _ => named ▸ free id t live

/-- A segment is created, another one asks for its name, and the deletion of the first one breaks off half
way: its name is free all the same. -/
theorem segment_names_unique_reuse :
    let vip : NewSegment := ⟨" VIP ", none, [], true⟩
    let steps : List Step :=
      [⟨[], .createSegment vip "ops"⟩, ⟨[.setAudienceSize], .createSegment ⟨"new", none, [], true⟩ "ops"⟩]
    let w := serveAll steps (.start .empty (fun _ => .epoch) Uuid.counting)
    w.issuedIds.Nodup ∧ (serve [] (.createSegment vip "ops") w).1.isOk = false ∧
      (serve [] (.createSegment vip "ops")
        (serve [.removeSegmentFromAll] (.deleteSegment (Uuid.counting 0)) w).2).1.isOk = true := by
  intro vip steps
  have fresh : (serveAll steps (.start .empty (fun _ => .epoch) Uuid.counting)).issuedIds.Nodup := by
    decide +kernel
  have live : (serveAll steps (.start .empty (fun _ => .epoch) Uuid.counting)).state.segments.get? (Uuid.counting 0) =
      some (vip.segment (Uuid.counting 0) "VIP" .epoch "ops") := by decide +kernel
  have gone : (serve [.removeSegmentFromAll] (.deleteSegment (Uuid.counting 0))
      (serveAll steps (.start .empty (fun _ => .epoch) Uuid.counting))).2.state.segments.get? (Uuid.counting 0) = none := by
    decide +kernel
  have fresh' : (serve [.removeSegmentFromAll] (.deleteSegment (Uuid.counting 0))
      (serveAll steps (.start .empty (fun _ => .epoch) Uuid.counting))).2.issuedIds.Nodup := by decide +kernel
  obtain ⟨_, _, _, created, _, reused⟩ := segment_names_unique steps fresh
  generalize serveAll steps (.start .empty (fun _ => .epoch) Uuid.counting) = w at *
  have named : Text.trim vip.name = "VIP" := by decide +kernel
  refine ⟨fresh, ?_, ?_⟩
  · rw [Bool.eq_false_iff]
    exact fun accepted => ((created vip "ops").1 accepted).2 _ _ live named.symm
  · refine (reused ⟨[.removeSegmentFromAll], .deleteSegment (Uuid.counting 0)⟩ fresh' _ _ live ?_).1 vip "ops" named
    intro s' kept
    rw [gone] at kept
    cases kept

end CustomerSegments.Service
