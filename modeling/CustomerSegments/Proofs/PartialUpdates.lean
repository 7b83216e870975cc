import CustomerSegments.Proofs.SegmentUpdates

namespace CustomerSegments.Store.Host

open Memory

/-- An accepted update, in memory or on a server, in any state that calls can bring about. The record becomes the old
one with the parts that are present in the request, the name trimmed, and with a new time of its last update. Of a
customer, nothing else changes but the sizes of segments that are in one of the old and the new set and not in the
other. Of a segment, the size changes only if rules are present, and is then the number of customers that they mean;
its name leads to it and the old one no longer does, and nothing else changes. The same request made again is accepted
and moves the time of the last update alone, provided that rules that are present are counted at the same time again;
it moves no sizes for a customer. In memory everything can be kept; on a server the amounts, free-form members and
rules that are requested have to be read back from their text. -/
theorem updates_replace_what_is_present (h : Host) (w : World h.State) (reached : h.Reached w.state) :
    ∃ m, h.Shows w.state m ∧
      (∀ id patch change w', h.KeepsRequest (.updateCustomer id patch) →
        h.Ends (Customers.update id patch) w (.ok change) w' →
          let new := change.customer
          ∃ old m', m.customers.get? id = some old ∧ patch.Patches old new ∧ w.Reads w' new.updatedAt ∧
            h.Shows w'.state m' ∧
            Resizes (fun segment => segment ∈ old.segments ↔ segment ∈ new.segments)
              { m with customers := m.customers.insert id new } m' ∧
            ∀ v : World h.State, v.state = w'.state → ∃ again v',
              h.Ends (Customers.update id patch) v (.ok ⟨again, .empty⟩) v' ∧ v.Reads v' again.updatedAt ∧
                again = { new with updatedAt := again.updatedAt } ∧
                h.Shows v'.state { m' with customers := m'.customers.insert id again }) ∧
      ∀ id patch new w', h.KeepsRequest (.updateSegment id patch) → h.Ends (Segments.update id patch) w (.ok new) w' →
        let counted (before : Segment) (now : Instant) : Int64 :=
          patch.rules.elim before.audienceSize fun rules => Audience.storedSize (m.audience rules now)
        ∃ old names now, m.segments.get? id = some old ∧ patch.Patches old new ∧ w.Reads w' new.updatedAt ∧
          w.Reads w' now ∧ new.audienceSize = counted old now ∧
          (∀ name, names.get? name =
            if name = new.name then some id else if name = old.name then none else m.names.get? name) ∧
          h.Shows w'.state { m with names := names, segments := m.segments.insert id new } ∧
          ∀ v : World h.State, v.state = w'.state → ∃ again v' now',
            h.Ends (Segments.update id patch) v (.ok again) v' ∧ v.Reads v' again.updatedAt ∧ v.Reads v' now' ∧
              again.audienceSize = counted new now' ∧
              (patch.rules = none ∨ now' = now → again = { new with updatedAt := again.updatedAt }) ∧
              h.Shows v'.state { m with names := names, segments := m.segments.insert id again } := by
  obtain ⟨m, shows, owned⟩ := reached.shows
  refine ⟨m, shows, ?_, ?_⟩
  · intro id patch change w' keeps ends new
    obtain ⟨old, live, filled⟩ := shows.updateCustomer_accepted ends
    have own := reached.own_customer shows.represents live
    obtain ⟨c, deltas, w₁, m', ends', shows', patches, updated, resizes, -⟩ :=
      shows.updateCustomer_of_live live own filled keeps
    obtain ⟨same, rfl⟩ := ends.unique ends'
    cases same
    refine ⟨old, m', live, patches, updated, shows', resizes, fun v state => ?_⟩
    have shows' : h.Shows v.state m' := state ▸ shows'
    have live' : m'.customers.get? id = some c := by rw [resizes.customers, Table.get?_insert, if_pos rfl]
    obtain ⟨again, _, v', _, ends'', shows'', patches', updated', -, kept⟩ :=
      shows'.updateCustomer_of_live live' (patches.id.trans own) filled keeps
    have same := patches.again patches'
    obtain ⟨rfl, rfl⟩ := kept (by rw [same]; rfl)
    exact ⟨again, v', ends'', updated', same, shows''⟩
  · intro id patch new w' keeps ends counted
    obtain ⟨old, names, mid, live, filled, moved, follows, state, ends⟩ :=
      shows.updateSegment_accepted owned.own keeps ends
    have shows : h.Shows mid.state m := state ▸ shows
    obtain ⟨g, w₁, now, ends', shows', patches, updated, at_now, size⟩ :=
      shows.updateSegment_of_named live (owned.own live) keeps moved
    obtain ⟨same, rfl⟩ := ends.unique ends'
    cases same
    refine ⟨old, names, now, live, patches, updated.widen follows (.refl w'), at_now.widen follows (.refl w'), size,
      fun name => ?_, shows', fun v state => ?_⟩
    · rw [get?_renamed (fun _ => owned.leads live) moved, patches.name.eq_getD]
      rfl
    · have shows' : h.Shows v.state { m with names := names, segments := m.segments.insert id new } := state ▸ shows'
      have live' : (m.segments.insert id new).get? id = some new := by rw [Table.get?_insert, if_pos rfl]
      obtain ⟨again, v', now', ends'', shows'', patches', updated', at_now', size'⟩ :=
        shows'.updateSegment_of_kept live' (patches.id.trans (owned.own live)) keeps patches.nameOf_eq filled
      rw [Table.insert_insert] at shows''
      refine ⟨again, v', now', ends'', updated', at_now', size', fun same => ?_, shows''⟩
      have kept : again.audienceSize = new.audienceSize := by
        rw [size']
        cases requested : patch.rules with
        | none => rfl
        | some rules =>
          obtain rfl : now' = now := same.resolve_left (by rw [requested]; nofun)
          rw [size, requested]
          rfl
      rw [patches.again patches', kept]

/-- Ada is renamed and leaves her segment, which is renamed and counted again. -/
theorem updates_replace_what_is_present_of_ada :
    let opened := run .memory (call (.insertSegment whales)).run (.start Memory.empty (fun _ => .epoch) Uuid.counting)
    let w := (run .memory (call (.insertCustomer (memberOf whales.id))).run opened.2).2
    let left : CustomerPatch :=
      ⟨some " Ada Lovelace", none, some "1815", none, none, none, none, none, none, none, none, none, some .empty⟩
    let big : SegmentPatch := ⟨some "Big ", none, some [], none⟩
    (∃ change w' again v', Ends .memory (Customers.update (memberOf whales.id).id left) w (.ok change) w' ∧
        change.customer.profile.name = "Ada Lovelace" ∧ change.customer.profile.email = none ∧
        Ends .memory (Customers.update (memberOf whales.id).id left) w' (.ok ⟨again, .empty⟩) v') ∧
      ∃ new w' again v', Ends .memory (Segments.update whales.id big) w (.ok new) w' ∧ new.name = "Big" ∧
        new.createdBy = whales.createdBy ∧ Ends .memory (Segments.update whales.id big) w' (.ok again) v' ∧
        again = { new with updatedAt := again.updatedAt } := by
  intro opened w left big
  have reached : Reached .memory w.state := .call (.call .empty trivial) trivial
  obtain ⟨m, shows, customers, segments⟩ := updates_replace_what_is_present .memory w reached
  obtain rfl : w.state = m := shows.represents
  constructor
  · obtain ⟨change, ends⟩ := Ends.of_isOk (h := .memory) (w := w) (Customers.update (memberOf whales.id).id left)
      (by decide +kernel)
    obtain ⟨old, _, live, patches, _, _, _, later⟩ := customers _ left change _ ⟨nofun, nofun⟩ ends
    obtain ⟨again, v', ends', _⟩ := later _ rfl
    have stored : w.state.customers.get? (memberOf whales.id).id = some (memberOf whales.id) := by decide +kernel
    cases live.symm.trans stored
    exact ⟨change, _, again, v', ends, patches.name.taken _ (by decide +kernel), patches.email.kept rfl, ends'⟩
  · obtain ⟨new, ends⟩ := Ends.of_isOk (h := .memory) (w := w) (Segments.update whales.id big) (by decide +kernel)
    obtain ⟨old, _, now, live, patches, _, ⟨_, _, _, here⟩, _, _, _, later⟩ :=
      segments _ big new _ (fun _ _ => trivial) ends
    obtain ⟨again, v', now', ends', _, ⟨_, _, _, there⟩, _, kept, _⟩ := later _ rfl
    have stored : w.state.segments.get? whales.id = some whales := by decide +kernel
    cases live.symm.trans stored
    refine ⟨new, _, again, v', ends, patches.name.taken _ (by decide +kernel), patches.createdBy, ends', kept (.inr ?_)⟩
    rw [here, there, ends.follows.clock]
    rfl

end CustomerSegments.Store.Host
