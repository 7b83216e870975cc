import CustomerSegments.Proofs.Keys
import CustomerSegments.Proofs.LiveMemberships
import CustomerSegments.Proofs.PatchedRecords
import CustomerSegments.Proofs.ShownStates

namespace CustomerSegments

namespace World

variable {σ : Type} {v w mid w' : World σ} {t : Instant}

/-- A time that the clock showed on the way from one world to another. -/
def Reads (w w' : World σ) (t : Instant) : Prop :=
  ∃ k, w.readings ≤ k ∧ k < w'.readings ∧ t = w.clock k

theorem reads_tick (w : World σ) : w.Reads w.tick (w.clock w.readings) :=
  ⟨w.readings, Nat.le_refl _, Nat.lt_succ_self _, rfl⟩

theorem Reads.widen (before : v.Follows w) (reads : w.Reads mid t) (after : mid.Follows w') : v.Reads w' t := by
  obtain ⟨k, least, most, rfl⟩ := reads
  exact ⟨k, Nat.le_trans before.readings least, Nat.lt_of_lt_of_le most after.readings, by rw [before.clock]⟩

end World

namespace Memory

variable {spared : Uuid → Prop} {m mid m' : Memory} {id : Uuid}

/-- The store after the sizes of some segments moved, those of others were spared. -/
structure Resizes (spared : Uuid → Prop) (m m' : Memory) : Prop where
  customers : m'.customers = m.customers
  names : m'.names = m.names
  size : ∀ id, ∃ size, m'.segments.get? id = (m.segments.get? id).map fun g => { g with audienceSize := size }
  others : ∀ {id}, spared id → m'.segments.get? id = m.segments.get? id

namespace Resizes

theorem refl (spared : Uuid → Prop) (m : Memory) : Resizes spared m m := by
  refine ⟨rfl, rfl, fun id => ?_, fun _ => rfl⟩
  cases live : m.segments.get? id with
  | none => exact ⟨0, rfl⟩
  | some g => exact ⟨g.audienceSize, rfl⟩

theorem trans (first : Resizes spared m mid) (rest : Resizes spared mid m') : Resizes spared m m' := by
  refine ⟨rest.customers.trans first.customers, rest.names.trans first.names, fun id => ?_, fun kept =>
    (rest.others kept).trans (first.others kept)⟩
  obtain ⟨_, here⟩ := first.size id
  obtain ⟨size, there⟩ := rest.size id
  refine ⟨size, ?_⟩
  rw [there, here, Option.map_map]
  rfl

theorem bump (touched : ¬ spared id) (delta : Int64) (m : Memory) : Resizes spared m (m.bump delta id) := by
  refine ⟨customers_revise, names_revise, fun other => ?_, fun {other} kept => ?_⟩
  · rw [Memory.bump, get?_revise]
    cases live : m.segments.get? other with
    | none => exact ⟨0, rfl⟩
    | some g =>
      by_cases same : id = other
      · exact ⟨g.audienceSize + delta, by simp only [Option.map_some, if_pos same]⟩
      · exact ⟨g.audienceSize, by simp only [Option.map_some, if_neg same]⟩
  · have different : id ≠ other := fun same => touched (same ▸ kept)
    rw [Memory.bump, get?_revise]
    simp only [if_neg different, Option.map_id']

end Resizes

end Memory

namespace Store.Host

open Memory

variable {h : Host} {w w' : World h.State} {m : Memory} {id : Uuid} {ids : List Uuid} {old : Customer} {patch : CustomerPatch}

/-- In memory, every record lies under its own identifier. -/
theorem Reached.keyedIn {state : State .memory} (reached : Reached .memory state) : ∃ ids, KeyedIn ids state := by
  induction reached with
  | empty => exact ⟨[], .empty⟩
  | @call w c before stores ih =>
    obtain ⟨ids, keyed⟩ := ih
    rw [run, Service.runInMemory_call]
    by_cases inserts : c.method ∈ [.insertCustomer, .insertSegment]
    · have changes := changes c (w.clock w.readings) w.state
      change ∃ ids, KeyedIn ids (Memory.answer c (w.clock w.readings) w.state).2
      generalize (Memory.answer c (w.clock w.readings) w.state).2 = m' at changes ⊢
      cases changes with
      | nothing => exact ⟨ids, keyed⟩
      | insertCustomer c =>
        exact ⟨c.id :: ids, (keyed.mono (List.subset_cons_self _ _)).insertCustomer List.mem_cons_self⟩
      | @insertSegment s free =>
        exact ⟨s.id :: ids, (keyed.mono (List.subset_cons_self _ _)).insertSegment List.mem_cons_self _⟩
      | _ => simp [Call.method] at inserts
    · exact ⟨ids, keyed.answer inserts⟩

theorem Reached.own_customer {state : h.State} (reached : h.Reached state) (represents : h.Represents state m)
    (known : m.customers.get? id = some old) : old.id = id := by
  cases h with
  | server l => exact (represents.customers.sound known).1
  | memory =>
    obtain rfl : state = m := represents
    obtain ⟨_, keyed⟩ := reached.keyedIn
    exact (keyed.customer known).1

/-- Additions move sizes of listed segments at most, whether they fit or not. -/
theorem applyDelta_resizes {spared : Uuid → Prop} (shows : h.Shows w.state m) (delta : Int64)
    (touched : ∀ id ∈ ids, ¬ spared id) :
    ∃ m', h.Shows (h.run (Audience.applyDelta delta ids) w).2.state m' ∧ m.Resizes spared m' := by
  induction ids generalizing w m with
  | nil =>
    refine ⟨m, ?_, .refl _ m⟩
    rw [show Audience.applyDelta delta [] = pure .empty from rfl, run_pure]
    exact shows
  | cons id rest ih =>
    obtain ⟨o, s', readings, mid, ends, shows', moved⟩ := shows.increment id delta
    have here : m.Resizes spared mid := by
      rcases moved with rfl | rfl
      · exact .refl _ _
      · exact .bump (touched id (.head rest)) delta m
    have touched' := fun other mem => touched other (.tail id mem)
    have ran : h.run (call (.incrementAudienceSize id delta)).run w = (o, _) := ends
    rw [Audience.applyDelta, run_bind, ran]
    cases o with
    | ok size =>
      obtain ⟨m', shows'', later⟩ :=
        ih (w := ({ w with state := s', readings := readings } : World h.State).note .deltasApplied 1) shows' touched'
      simp only [run_bind, run_tally, run_pure]
      exact ⟨m', shows'', here.trans later⟩
    | error e =>
      obtain ⟨m', shows'', later⟩ :=
        ih (w := ({ w with state := s', readings := readings } : World h.State).note .deltasFailed 1) shows' touched'
      simp only [run_bind, run_tally, run_pure]
      exact ⟨m', shows'', here.trans later⟩

/-- Only segments that are in one of the sets and not in the other are touched. -/
theorem customerUpdated_resizes (shows : h.Shows w.state m) (before after : IdSet) :
    ∃ m', h.Shows (h.run (Audience.customerUpdated before after) w).2.state m' ∧
      m.Resizes (fun id => id ∈ before ↔ id ∈ after) m' := by
  have joined : ∀ id ∈ (after.diff before).toList, ¬ (id ∈ before ↔ id ∈ after) := fun id mem kept => by
    obtain ⟨now, was⟩ := IdSet.mem_diff.1 mem
    exact was (kept.2 now)
  have left : ∀ id ∈ (before.diff after).toList, ¬ (id ∈ before ↔ id ∈ after) := fun id mem kept => by
    obtain ⟨was, now⟩ := IdSet.mem_diff.1 mem
    exact now (kept.1 was)
  obtain ⟨mid, shows', gained⟩ := applyDelta_resizes shows 1 joined
  obtain ⟨m', shows'', lost⟩ := applyDelta_resizes shows' (-1) left
  refine ⟨m', ?_, gained.trans lost⟩
  unfold Audience.customerUpdated
  simp only [run_bind, run_pure]
  exact shows''

namespace Shows

theorem updateCustomer_ends {c : Customer} (shows : h.Shows w.state m) (stores : h.Stores (.updateCustomer c))
    (live : m.customers.get? c.id = some old) :
    ∃ s' readings, h.Ends (call (.updateCustomer c)) w (.ok ()) { w with state := s', readings := readings } ∧
      h.Shows s' { m with customers := m.customers.insert c.id c } := by
  obtain ⟨o, s', readings, ends, shows', agree⟩ :=
    shows.called stores trivial (by simp [Call.method, Memory.segmentWrites])
  rw [answer_updateCustomer_of_live live] at shows' agree
  obtain ⟨_, rfl, _⟩ := (agree trivial).exists_ok
  exact ⟨s', readings, ends, shows'⟩

theorem getCustomer_ends (shows : h.Shows w.state m) (id : Uuid) :
    ∃ s' readings, h.Ends (call (.getCustomer id)) w (.ok (m.customers.get? id))
      { w with state := s', readings := readings } ∧ h.Shows s' m := by
  obtain ⟨o, s', readings, ends, shows', agree⟩ :=
    shows.called (c := .getCustomer id) (.of_storable trivial) trivial (by simp [Call.method, Memory.segmentWrites])
  obtain ⟨_, rfl, rfl⟩ := (agree trivial).exists_ok
  exact ⟨s', readings, ends, shows'⟩

/-- A customer is replaced, and the sizes of the segments that it left or joined move. -/
theorem replaceCustomer_ends (shows : h.Shows w.state m) (live : m.customers.get? old.id = some old)
    (keeps : h.KeepsRequest (.updateCustomer id patch)) (name : String) :
    ∃ deltas w' m', let new := Customers.revised old patch name (w.clock w.readings)
      let stored : Memory := { m with customers := m.customers.insert old.id new }
      h.Ends (Customers.replace old patch name) w (.ok ⟨new, deltas⟩) w' ∧ h.Shows w'.state m' ∧ w.tick.Follows w' ∧
        stored.Resizes (fun segment => segment ∈ old.segments ↔ segment ∈ new.segments) m' ∧
        (new.segments = old.segments → deltas = .empty ∧ m' = stored) := by
  let new := Customers.revised old patch name (w.clock w.readings)
  have stores : h.Stores (.updateCustomer new) :=
    stores_revised_customer (keepsProfile_of_represents shows.represents live) keeps name _
  have shows : h.Shows w.tick.state m := shows
  obtain ⟨s', readings, written, shows'⟩ := shows.updateCustomer_ends stores live
  let mid : World h.State := { w.tick with state := s', readings := readings }
  by_cases kept : old.segments = new.segments
  · refine ⟨.empty, mid, _, Ends.now_bind_iff.2 (written.bind ?_), shows', written.follows, .refl _ _, fun _ => ⟨rfl, rfl⟩⟩
    rw [if_neg (not_not_intro kept)]
    exact Ends.pure_iff.2 ⟨rfl, rfl⟩
  · obtain ⟨m', shows'', resizes⟩ := customerUpdated_resizes (w := mid) shows' old.segments new.segments
    let ran := h.run (Audience.customerUpdated old.segments new.segments) mid
    refine ⟨ran.1, ran.2, m', Ends.now_bind_iff.2 (written.bind ?_), shows'',
      written.follows.trans (run_follows _ _), resizes, fun same => absurd same.symm kept⟩
    rw [if_pos kept]
    exact Ends.sure_bind_iff.2 (Ends.pure_iff.2 ⟨rfl, rfl⟩)

theorem updateCustomer_accepted {change : CustomerChange} (shows : h.Shows w.state m)
    (ends : h.Ends (Customers.update id patch) w (.ok change) w') :
    ∃ old, m.customers.get? id = some old ∧ ∀ raw, patch.name = some raw → Text.trim raw ≠ "" := by
  unfold Customers.update at ends
  obtain ⟨old, mid, first, rest⟩ := ends.of_ok_bind
  obtain ⟨found, looked, read, first⟩ := Ends.of_ok_bind first
  obtain ⟨_, _, read', _⟩ := shows.getCustomer_ends id
  cases (read.unique read').1
  cases live : m.customers.get? id with
  | none =>
    rw [live] at first
    cases (Ends.throw_iff.1 first).1
  | some c =>
    refine ⟨c, rfl, fun raw requested filled => ?_⟩
    rw [requested] at rest
    obtain ⟨name, _, valid, _⟩ := Ends.of_ok_bind rest
    exact (validName_eq_ok_iff.1 (Ends.settled_iff.1 valid).1.symm).2 filled

/-- The update of a live customer under a name that is not blank is accepted. -/
theorem updateCustomer_of_live (shows : h.Shows w.state m) (live : m.customers.get? id = some old) (own : old.id = id)
    (filled : ∀ raw, patch.name = some raw → Text.trim raw ≠ "") (keeps : h.KeepsRequest (.updateCustomer id patch)) :
    ∃ new deltas w' m', let stored : Memory := { m with customers := m.customers.insert id new }
      h.Ends (Customers.update id patch) w (.ok ⟨new, deltas⟩) w' ∧ h.Shows w'.state m' ∧ patch.Patches old new ∧
        w.Reads w' new.updatedAt ∧
        stored.Resizes (fun segment => segment ∈ old.segments ↔ segment ∈ new.segments) m' ∧
        (new.segments = old.segments → deltas = .empty ∧ m' = stored) := by
  subst own
  obtain ⟨s', readings, read, shows'⟩ := shows.getCustomer_ends (w := w) old.id
  rw [live] at read
  let mid : World h.State := { w with state := s', readings := readings }
  have got : h.Ends (Customers.get old.id) w (.ok old) mid := read.bind (Ends.pure_iff.2 ⟨rfl, rfl⟩)
  obtain ⟨deltas, w', m', replaced, shows'', follows, resizes, kept⟩ :=
    replaceCustomer_ends (w := mid) shows' live keeps (patch.nameOf old)
  refine ⟨_, deltas, w', m', got.bind ?_, shows'', patch.patches_revised old _,
    (mid.reads_tick.widen (.refl mid) follows).widen got.follows (.refl w'), resizes, kept⟩
  cases requested : patch.name with
  | none =>
    have name : patch.nameOf old = old.profile.name := by rw [CustomerPatch.nameOf, requested]; rfl
    rw [name] at replaced ⊢
    exact replaced
  | some raw =>
    have name : patch.nameOf old = Text.trim raw := by rw [CustomerPatch.nameOf, requested]; rfl
    rw [name] at replaced ⊢
    have valid : validName .customer raw = .ok (Text.trim raw) := validName_eq_ok_iff.2 ⟨rfl, filled raw requested⟩
    exact (Ends.settled_iff.2 ⟨valid.symm, rfl⟩).bind replaced

end Shows

end Store.Host

end CustomerSegments
