import CustomerSegments.Proofs.Footprint
import CustomerSegments.Proofs.RepresentedRuns
import CustomerSegments.Proofs.SegmentDeletion

namespace CustomerSegments

namespace Memory

/-- A segment is stored. -/
def Live (m : Memory) (id : Uuid) : Prop :=
  ∃ g, m.segments.get? id = some g

/-- Customers hold live segments only. -/
structure Grounded (m : Memory) : Prop where
  held : ∀ {id c}, m.customers.get? id = some c → ∀ segment ∈ c.segments, m.Live segment

/-- The customers are as they were, and no segment is lost. -/
structure Widens (m m' : Memory) : Prop where
  customers : m'.customers = m.customers
  live : ∀ {id}, m.Live id → m'.Live id

variable {m m' : Memory} {id : Uuid} {c : Customer}

namespace Widens

theorem refl (m : Memory) : Widens m m :=
  ⟨rfl, id⟩

theorem trans {mid : Memory} (first : Widens m mid) (rest : Widens mid m') : Widens m m' :=
  ⟨rest.customers.trans first.customers, fun live => rest.live (first.live live)⟩

theorem bump (delta : Int64) (id : Uuid) (m : Memory) : Widens m (m.bump delta id) := by
  refine ⟨customers_revise, fun ⟨g, live⟩ => ?_⟩
  rw [Live, Memory.bump, get?_revise, live]
  exact ⟨_, rfl⟩

theorem answer {call : Store.Call} (now : Instant) (apart : call.method ∉ customerWrites)
    (keeps : call.method ≠ .deleteSegment) : Widens m (Memory.answer call now m).2 :=
  ⟨customers_answer now apart, fun ⟨_, live⟩ => live_after now keeps live⟩

theorem grounded (widens : Widens m m') (grounded : m.Grounded) : m'.Grounded := by
  refine ⟨fun {id c} known segment member => ?_⟩
  rw [widens.customers] at known
  exact widens.live (grounded.held known segment member)

end Widens

namespace Grounded

theorem empty : Grounded Memory.empty :=
  ⟨nofun⟩

theorem insert (grounded : m.Grounded) (live : ∀ segment ∈ c.segments, m.Live segment) :
    Grounded { m with customers := m.customers.insert id c } := by
  refine ⟨fun {other c'} known => ?_⟩
  rw [Table.get?_insert] at known
  split at known
  · cases known
    exact live
  · exact grounded.held known

theorem erase (grounded : m.Grounded) : Grounded { m with customers := m.customers.erase id } := by
  refine ⟨fun {other c} known => ?_⟩
  rw [Table.get?_erase] at known
  split at known
  · cases known
  · exact grounded.held known

/-- Who held the segment that goes holds it no longer, and the other ones stay live. -/
theorem dismiss (grounded : m.Grounded) (g : Segment) (id : Uuid) (now : Instant) : Grounded (m.dismiss g id now) := by
  refine ⟨fun {other c} known segment member => ?_⟩
  rw [Memory.dismiss, Table.get?_map, Option.map_eq_some_iff] at known
  obtain ⟨held, known, rfl⟩ := known
  have different : segment ≠ id := fun same => not_mem_strip (same ▸ member)
  obtain ⟨s, live⟩ := grounded.held known segment ((mem_strip different).1 member)
  exact ⟨s, by rwa [Memory.dismiss, Table.get?_erase, if_neg different.symm]⟩

end Grounded

/-- A state in which customers hold live segments, among them all that were live before. -/
structure Sustains (m m' : Memory) : Prop where
  grounded : m'.Grounded
  live : ∀ {id}, m.Live id → m'.Live id

namespace Sustains

variable {mid : Memory}

theorem refl (grounded : m.Grounded) : Sustains m m :=
  ⟨grounded, fun live => live⟩

theorem widened (sustains : Sustains m mid) (widens : Widens mid m') : Sustains m m' :=
  ⟨widens.grounded sustains.grounded, fun live => widens.live (sustains.live live)⟩

theorem stored (grounded : m.Grounded) (id : Uuid) (live : ∀ segment ∈ c.segments, m.Live segment) :
    Sustains m { m with customers := m.customers.insert id c } :=
  ⟨grounded.insert live, fun live => live⟩

end Sustains

end Memory

namespace Service.Request

/-- The segments that customers are put into by a request. -/
def assigned : Request → List Uuid
  | createCustomer request => request.profile.segments.toList
  | importCustomers requests => requests.flatMap fun request => request.profile.segments.toList
  | updateCustomer _ patch => patch.segments.elim [] IdSet.toList
  | _ => []

/-- What a result says about the sizes of segments, if it says something. -/
def deltas : (r : Request) → r.Result → DeltaOutcome
  | createCustomer _, change | updateCustomer _ _, change => change.membership
  | importCustomers _, done => done.membership
  | deleteCustomer _, deltas => deltas
  | previewAudience _, _ | listSegments, _ | getSegment _, _ | summarizeSegment _, _ | createSegment _ _, _
  | updateSegment _ _, _ | deleteSegment _, _ | listCustomers, _ | getCustomer _, _ => .empty

/-- A result does not say that a size failed to move. -/
def Complete (r : Request) : Except Error r.Result → Prop
  | .ok a => (r.deltas a).failed = []
  | .error _ => True

end Service.Request

namespace Store.Host

open Redis Memory Service

variable {h : Host} {m : Memory} {id : Uuid}

/-- What a request brings along can be kept. -/
def KeepsRequest (h : Host) : Request → Prop
  | .createSegment request _ => h.KeepsRules request.rules
  | .updateSegment _ patch => ∀ rules, patch.rules = some rules → h.KeepsRules rules
  | .createCustomer request => h.KeepsProfile request.profile
  | .importCustomers requests => ∀ request ∈ requests, h.KeepsProfile request.profile
  | .updateCustomer _ patch =>
    (∀ spent, patch.totalSpend = some spent → h.Keeps (.ofDouble spent)) ∧
      ∀ free, patch.attributes = some free → h.Keeps (.object free)
  | _ => True

/-- What a patch leaves of a record that can be kept, with what it brings along, can be kept. -/
theorem stores_revised_customer {old : Customer} {patch : CustomerPatch} (before : h.KeepsProfile old.profile)
    (keeps : h.KeepsRequest (.updateCustomer id patch)) (name : String) (now : Instant) :
    h.Stores (.updateCustomer (Customers.revised old patch name now)) := by
  refine (KeepsProfile.stores (c := Customers.revised old patch name now) ⟨?_, ?_⟩).2
  · change h.Keeps (.ofDouble (patch.totalSpend.getD old.profile.totalSpend))
    cases spent : patch.totalSpend with
    | none => exact before.spent
    | some spent' => exact keeps.1 spent' spent
  · change h.Keeps (.object (patch.attributes.getD old.profile.attributes))
    cases free : patch.attributes with
    | none => exact before.free
    | some free' => exact keeps.2 free' free

theorem stores_revised_segment {old : Segment} {patch : SegmentPatch} (before : h.KeepsRules old.rules)
    (keeps : h.KeepsRequest (.updateSegment id patch)) (name : String) (now : Instant) :
    h.Stores (.updateSegment (Segments.revised old patch name now)) := by
  refine (KeepsRules.stores (g := Segments.revised old patch name now) ?_).2
  change h.KeepsRules (patch.rules.getD old.rules)
  cases requested : patch.rules with
  | none => exact before
  | some rules => exact keeps rules requested

/-- A call that adds to no size, deletes no segment and writes no customer. -/
structure Plain (h : Host) (c : Call) : Prop where
  stores : h.Stores c
  whole : c.method ≠ .incrementAudienceSize
  keeps : c.method ≠ .deleteSegment
  apart : c.method ∉ customerWrites

theorem plain {c : Call} (stores : h.Stores c)
    (other : c.method ∉ [.incrementAudienceSize, .deleteSegment] ++ customerWrites := by
      simp [Call.method, customerWrites]) : h.Plain c :=
  ⟨stores, fun same => other (same ▸ by simp), fun same => other (same ▸ by simp), fun mem => other (by simp [mem])⟩

theorem plain_of_read {c : Call}
    (reads : c.method ∈ [.getCustomer, .listCustomers, .countMatching, .getSegment, .listSegments]) : h.Plain c := by
  cases c with
  | getCustomer id | listCustomers | countMatching p | getSegment id | listSegments => exact plain (.of_storable trivial)
  | _ => simp [Call.method] at reads

namespace Leads

variable {delta : Int64} {ids : List Uuid}

theorem widens_of_calls {α : Type} {op : Operation α} (only : CallsOnly h.Plain op) :
    h.Leads op.run m fun _ m' => m.Widens m' := by
  refine related .refl (fun _ _ _ => .trans) (fun c plain => ⟨plain.stores, plain.whole⟩) (fun c now m plain => ?_)
    only.asks
  exact .answer now plain.apart plain.keeps

theorem widens_of_reads {r : Request}
    (reads : ∀ method ∈ r.footprint, method ∈ [.getCustomer, .listCustomers, .countMatching, .getSegment, .listSegments]) :
    h.Leads r.operation.run m fun _ m' => m.Widens m' :=
  widens_of_calls (operation_calls fun c member => plain_of_read (reads c.method member))

/-- Additions to live segments all come about. -/
theorem applyDelta (live : ∀ id ∈ ids, m.Live id) :
    h.Leads (Audience.applyDelta delta ids) m fun deltas m' => m.Widens m' ∧ deltas.failed = [] := by
  induction ids generalizing m with
  | nil => exact .pure ⟨.refl m, rfl⟩
  | cons id rest ih =>
    obtain ⟨g, known⟩ := live id (.head rest)
    refine Leads.bind (Q := fun o m' => (∃ size, o = .ok size) ∧ m' = m.bump delta id)
      (increment known fun size => ⟨⟨size, rfl⟩, rfl⟩) ?_
    rintro _ _ ⟨⟨size, rfl⟩, rfl⟩
    have widens := Widens.bump delta id m
    refine Leads.bind (Q := fun _ m' => m' = m.bump delta id) (tally rfl) ?_
    rintro _ _ rfl
    refine (ih fun other mem => widens.live (live other (.tail _ mem))).bind ?_
    rintro deltas m' ⟨wider, none⟩
    exact .pure ⟨widens.trans wider, none⟩

theorem customerUpdated {before after : IdSet} (held : ∀ id ∈ before, m.Live id)
    (assigned : ∀ id ∈ after, m.Live id) :
    h.Leads (Audience.customerUpdated before after) m fun deltas m' => m.Widens m' ∧ deltas.failed = [] := by
  refine (applyDelta fun id gained => assigned id (IdSet.mem_diff.1 gained).1).bind ?_
  rintro added mid ⟨widens, none⟩
  refine (applyDelta fun id lost => widens.live (held id (IdSet.mem_diff.1 lost).1)).bind ?_
  rintro removed m' ⟨wider, none'⟩
  refine .pure ⟨widens.trans wider, ?_⟩
  rw [DeltaOutcome.failed_append, none, none', List.append_nil]

/-- A new customer is stored before it is counted, in segments that are live at both times. -/
theorem createCustomer {request : NewCustomer} (grounded : m.Grounded) (keeps : h.KeepsProfile request.profile)
    (live : ∀ id ∈ request.profile.segments, m.Live id) :
    h.Leads (Customers.create request).run m fun o m' =>
      m.Sustains m' ∧ Request.Complete (.createCustomer request) o := by
  unfold Customers.create
  refine andThen (Q := fun _ m' => m = m') (settled rfl) ?_ (by rintro e m' rfl; exact ⟨.refl grounded, trivial⟩)
  rintro name _ rfl
  refine sureThen (Q := fun _ m' => m = m') (now fun _ => rfl) ?_
  rintro time _ rfl
  refine sureThen (Q := fun _ m' => m = m') (freshId fun _ => rfl) ?_
  rintro id _ rfl
  let c := request.customer id name time
  have stored : h.Stores (.insertCustomer c) := (KeepsProfile.stores (c := c) ⟨keeps.spent, keeps.free⟩).1
  refine andThen (Q := fun o m' => o = .ok () ∧ m' = { m with customers := m.customers.insert id c })
    (call stored nofun fun o _ agree => ⟨agree.exists_ok.choose_spec.1, rfl⟩) ?_
    (by rintro e m' ⟨absurd, _⟩; cases absurd)
  rintro _ _ ⟨_, rfl⟩
  refine sureThen (applyDelta live) ?_
  rintro deltas m' ⟨widens, none⟩
  have held : ∀ segment ∈ c.segments, m.Live segment := live
  exact ok ⟨(Sustains.stored grounded id held).widened widens, none⟩

/-- Customers are created one after the other, and no segment is lost meanwhile. -/
theorem importFrom {requests all : List NewCustomer} {index : Nat} {done : BulkImport} (grounded : m.Grounded)
    (keeps : ∀ request ∈ requests, h.KeepsProfile request.profile)
    (live : ∀ request ∈ requests, ∀ id ∈ request.profile.segments, m.Live id) (complete : done.membership.failed = []) :
    h.Leads (Customers.importFrom index done requests).run m fun o m' =>
      m'.Grounded ∧ Request.Complete (.importCustomers all) o := by
  -- The sizes that failed to move are those of all customers so far: they come as a hypothesis about `done`.
  induction requests generalizing index done m with
  | nil => exact ok ⟨grounded, complete⟩
  | cons request rest ih =>
    refine sureThen (createCustomer grounded (keeps request (.head rest)) (live request (.head rest))) ?_
    rintro outcome mid ⟨sustains, complete'⟩
    have keeps' := fun other mem => keeps other (.tail request mem)
    have live' := fun other mem id assigned => sustains.live (live other (.tail request mem) id assigned)
    split
    · refine ih sustains.grounded keeps' live' ?_
      rw [DeltaOutcome.failed_append, complete, List.nil_append]
      exact complete'
    · exact ih sustains.grounded keeps' live' complete
    · exact throw ⟨sustains.grounded, trivial⟩

theorem getCustomer (id : Uuid) :
    h.Leads (Customers.get id).run m fun o m' => m = m' ∧ ∀ c, o = .ok c → m.customers.get? id = some c := by
  refine andThen (Q := fun o m' => o = .ok (m.customers.get? id) ∧ m = m')
    (call (.of_storable trivial) nofun fun o _ agree => ?_) ?_ (by rintro e m' ⟨absurd, _⟩; cases absurd)
  · obtain ⟨found, rfl, rfl⟩ := agree.exists_ok
    exact ⟨rfl, rfl⟩
  · rintro found _ ⟨same, rfl⟩
    cases same
    cases known : m.customers.get? id with
    | none => exact throw ⟨rfl, fun _ absurd => by cases absurd⟩
    | some c => exact ok ⟨rfl, fun _ same => by cases same; rfl⟩

/-- What a patch leaves of a customer leads to live segments because it did before. -/
theorem replaceCustomer {old : Customer} {patch : CustomerPatch} {name : String} (grounded : m.Grounded)
    (known : m.customers.get? id = some old) (keeps : h.KeepsRequest (.updateCustomer id patch))
    (live : ∀ segments, patch.segments = some segments → ∀ segment ∈ segments, m.Live segment) :
    h.Leads (Customers.replace old patch name).run m fun o m' =>
      m'.Grounded ∧ Request.Complete (.updateCustomer id patch) o := by
  -- What the patch leaves was read back once, so the state at hand says that it can be kept.
  refine of_represents fun ⟨state, represents⟩ => ?_
  unfold Customers.replace
  refine sureThen (Q := fun _ m' => m = m') (now fun _ => rfl) ?_
  rintro time _ rfl
  let c := Customers.revised old patch name time
  have stored : h.Stores (.updateCustomer c) :=
    stores_revised_customer (keepsProfile_of_represents represents known) keeps name time
  have held := grounded.held known
  have assigned : ∀ segment ∈ c.segments, m.Live segment := by
    change ∀ segment ∈ patch.segments.getD old.segments, m.Live segment
    cases requested : patch.segments with
    | none => exact held
    | some segments => exact live segments requested
  have sustains (now : Instant) : m.Sustains (Memory.answer (.updateCustomer c) now m).2 := by
    cases there : m.customers.get? c.id with
    | none =>
      rw [answer_updateCustomer_of_gone there]
      exact .refl grounded
    | some _ =>
      rw [answer_updateCustomer_of_live there]
      exact .stored grounded c.id assigned
  refine andThen (Q := fun _ m' => m.Sustains m') (call stored nofun fun _ now _ => sustains now) ?_
    fun _ _ sustained => ⟨sustained.grounded, trivial⟩
  intro _ mid sustained
  split
  · refine sureThen (customerUpdated (fun id mem => sustained.live (held id mem)) fun id mem =>
      sustained.live (assigned id mem)) ?_
    rintro deltas m' ⟨widens, none⟩
    exact ok ⟨widens.grounded sustained.grounded, none⟩
  · exact ok ⟨sustained.grounded, rfl⟩

theorem updateCustomer {patch : CustomerPatch} (grounded : m.Grounded) (keeps : h.KeepsRequest (.updateCustomer id patch))
    (live : ∀ segments, patch.segments = some segments → ∀ segment ∈ segments, m.Live segment) :
    h.Leads (Customers.update id patch).run m fun o m' =>
      m'.Grounded ∧ Request.Complete (.updateCustomer id patch) o := by
  unfold Customers.update
  refine andThen (getCustomer id) ?_ (by rintro e m' ⟨rfl, _⟩; exact ⟨grounded, trivial⟩)
  rintro old _ ⟨rfl, known⟩
  have replaced (name : String) : h.Leads (Customers.replace old patch name).run m fun o m' =>
      m'.Grounded ∧ Request.Complete (.updateCustomer id patch) o :=
    replaceCustomer grounded (known old rfl) keeps live
  cases patch.name with
  | none => exact replaced old.profile.name
  | some raw =>
    refine andThen (Q := fun _ m' => m = m') (settled rfl) ?_ (by rintro e m' rfl; exact ⟨grounded, trivial⟩)
    rintro name _ rfl
    exact replaced name

/-- The segments of a customer outlive it. -/
theorem deleteCustomer (grounded : m.Grounded) (id : Uuid) :
    h.Leads (Customers.delete id).run m fun o m' => m'.Grounded ∧ Request.Complete (.deleteCustomer id) o := by
  unfold Customers.delete
  refine andThen (Q := fun o m' => o = .ok (m.customers.get? id) ∧ m' = { m with customers := m.customers.erase id })
    (call (.of_storable trivial) nofun fun o _ agree => ?_) ?_ (by rintro e m' ⟨absurd, _⟩; cases absurd)
  · obtain ⟨found, rfl, rfl⟩ := agree.exists_ok
    exact ⟨rfl, rfl⟩
  · rintro found _ ⟨same, rfl⟩
    cases same
    cases known : m.customers.get? id with
    | none => exact throw ⟨grounded.erase, trivial⟩
    | some c =>
      have live : ∀ segment ∈ c.segments.toList, Live { m with customers := m.customers.erase id } segment :=
        grounded.held known
      refine sure ((applyDelta live).mono ?_)
      rintro deltas m' ⟨widens, none⟩
      exact ⟨widens.grounded grounded.erase, none⟩

/-- A segment is taken from its holders right after it is deleted. -/
theorem deleteSegment (grounded : m.Grounded) (id : Uuid) :
    h.Leads (Segments.delete id).run m fun o m' => m'.Grounded ∧ Request.Complete (.deleteSegment id) o := by
  unfold Segments.delete
  cases known : m.segments.get? id with
  | none =>
    refine andThen (Q := fun o m' => o = .ok none ∧ m = m') (call (.of_storable trivial) nofun fun o now agree => ?_) ?_
      (by rintro e m' ⟨absurd, _⟩; cases absurd)
    · rw [answer_deleteSegment_of_gone known] at agree ⊢
      obtain ⟨found, rfl, same⟩ := agree.exists_ok
      exact ⟨congrArg Except.ok (Option.map_eq_none_iff.1 same.symm), rfl⟩
    · rintro _ _ ⟨same, rfl⟩
      cases same
      exact throw ⟨grounded, trivial⟩
  | some g =>
    refine andThen (Q := fun o m' => (∃ g', o = .ok (some g')) ∧
        m' = { m with segments := m.segments.erase id, names := m.names.erase g.name })
      (call (.of_storable trivial) nofun fun o now agree => ?_) ?_ (by rintro e m' ⟨⟨_, absurd⟩, _⟩; cases absurd)
    · rw [answer_deleteSegment_of_live known] at agree ⊢
      obtain ⟨found, rfl, same⟩ := agree.exists_ok
      obtain ⟨g', rfl, _⟩ := Option.map_eq_some_iff.1 same.symm
      exact ⟨⟨g', rfl⟩, rfl⟩
    · rintro _ _ ⟨⟨g', same⟩, rfl⟩
      cases same
      -- Between the two calls the holders lead nowhere: the state is grounded again only after the second one.
      refine call (.of_storable trivial) nofun fun o now agree => ⟨grounded.dismiss g id now, ?_⟩
      obtain ⟨n, rfl, _⟩ := agree.exists_ok
      rfl

theorem createSegment {request : NewSegment} {createdBy : String} (keeps : h.KeepsRules request.rules) :
    h.Leads (Segments.create request createdBy).run m fun _ m' => m.Widens m' :=
  widens_of_calls (createSegment_calls (fun _ => plain (.of_storable trivial))
    (fun _ _ _ => plain (KeepsRules.stores keeps).1) (fun _ => plain (.of_storable trivial))
    (fun _ _ => plain (.of_storable trivial)) fun _ => plain (.of_storable trivial))

/-- A segment that is got has the rules of the one that is stored. -/
theorem getSegment (id : Uuid) :
    h.Leads (Segments.get id).run m fun o m' =>
      m = m' ∧ ∀ g, o = .ok g → ∃ stored, m.segments.get? id = some stored ∧ g.rules = stored.rules := by
  refine andThen (Q := fun o m' =>
      (∃ found, o = .ok found ∧ (m.segments.get? id).map Segment.undated = found.map Segment.undated) ∧ m = m')
    (call (.of_storable trivial) nofun fun o _ agree => ⟨agree.exists_ok, rfl⟩) ?_
    (by rintro e m' ⟨⟨_, absurd, _⟩, _⟩; cases absurd)
  rintro found _ ⟨⟨_, ⟨⟩, alike⟩, rfl⟩
  cases found with
  | none => exact throw ⟨rfl, fun _ absurd => by cases absurd⟩
  | some g =>
    obtain ⟨stored, known, same⟩ := Option.map_eq_some_iff.1 alike
    refine ok ⟨rfl, fun _ same' => ?_⟩
    cases same'
    have rules : g.undated.rules = stored.undated.rules := congrArg Segment.rules same.symm
    exact ⟨stored, known, rules⟩

theorem updateSegment {patch : SegmentPatch} (keeps : h.KeepsRequest (.updateSegment id patch)) :
    h.Leads (Segments.update id patch).run m fun _ m' => m.Widens m' := by
  refine of_represents fun ⟨state, represents⟩ => ?_
  unfold Segments.update
  refine andThen (getSegment id) ?_ (by rintro e m' ⟨rfl, _⟩; exact .refl m)
  rintro g _ ⟨rfl, known⟩
  obtain ⟨stored, known, rules⟩ := known g rfl
  have before : h.KeepsRules g.rules := rules ▸ keepsRules_of_represents represents known
  refine andThen (widens_of_calls (newName_calls (fun _ => plain (.of_storable trivial)) id g patch.name)) ?_
    fun _ _ widens => widens
  intro name named widens
  refine sureThen (Q := fun _ m' => named = m') (now fun _ => rfl) ?_
  rintro time _ rfl
  let g' := Segments.revised g patch name time
  have kept : h.Stores (.updateSegment g') := stores_revised_segment before keeps name time
  have written : CallsOnly h.Plain (do
      Store.call (.updateSegment g')
      if patch.rules.isSome then Segments.recount id g'.rules else Segments.get id) := by
    refine .bind (.call (plain kept)) fun _ => ?_
    split
    · exact recount_calls (fun _ => plain (.of_storable trivial)) (fun _ _ => plain (.of_storable trivial))
        (fun _ => plain (.of_storable trivial)) id _
    · exact getSegment_calls (fun _ => plain (.of_storable trivial)) id
  exact (widens_of_calls written).mono fun _ _ wider => widens.trans wider

/-- Whatever is requested, customers hold live segments afterwards, and no size failed to move. -/
theorem request {r : Request} (grounded : m.Grounded) (keeps : h.KeepsRequest r)
    (live : ∀ id ∈ r.assigned, m.Live id) :
    h.Leads r.operation.run m fun o m' => m'.Grounded ∧ r.Complete o := by
  have widened (widens : h.Leads r.operation.run m fun _ m' => m.Widens m') (silent : ∀ o, r.Complete o) :
      h.Leads r.operation.run m fun o m' => m'.Grounded ∧ r.Complete o :=
    widens.mono fun o _ widens => ⟨widens.grounded grounded, silent o⟩
  cases r with
  | previewAudience rules | listSegments | getSegment id | summarizeSegment id | listCustomers | getCustomer id =>
    exact widened (widens_of_reads (by simp [Request.footprint])) fun o => by cases o <;> trivial
  | createSegment request createdBy => exact widened (createSegment keeps) fun o => by cases o <;> trivial
  | updateSegment id patch => exact widened (updateSegment keeps) fun o => by cases o <;> trivial
  | deleteSegment id => exact deleteSegment grounded id
  | createCustomer request =>
    exact (createCustomer grounded keeps live).mono fun _ _ created => ⟨created.1.grounded, created.2⟩
  | importCustomers requests =>
    exact importFrom grounded keeps (fun request mem id held => live id (List.mem_flatMap_of_mem mem held)) rfl
  | updateCustomer id patch =>
    refine updateCustomer grounded keeps fun segments same segment held => live segment ?_
    rw [Request.assigned, same]
    exact held
  | deleteCustomer id => exact deleteCustomer grounded id

end Leads

/-- The world after requests are served one after the other. -/
def served (h : Host) (requests : List Request) (w : World h.State) : World h.State :=
  requests.foldl (fun w r => (h.run r.operation.run w).2) w

/-- A request that brings along what can be kept, meets no fault, and puts customers into live segments only. -/
structure Admits (h : Host) (r : Request) (w : World h.State) : Prop where
  keeps : h.KeepsRequest r
  faultless : h.Faultless r.operation.run w
  assigned : ∀ id ∈ r.assigned, ∃ g, h.answer (.getSegment id) w = .ok (some g)

variable {w : World h.State} {requests : List Request}

theorem live_iff (represents : h.Represents w.state m) :
    m.Live id ↔ ∃ g, h.answer (.getSegment id) w = .ok (some g) := by
  obtain ⟨found, same, alike⟩ := answer_getSegment represents id
  rw [same]
  constructor
  · rintro ⟨g, known⟩
    rw [known] at alike
    obtain ⟨g', rfl, _⟩ := Option.map_eq_some_iff.1 alike.symm
    exact ⟨g', rfl⟩
  · rintro ⟨g, ⟨⟩⟩
    obtain ⟨g', known, _⟩ := Option.map_eq_some_iff.1 alike
    exact ⟨g', known⟩

theorem Admits.step {r : Request} (admits : h.Admits r w) (represents : h.Represents w.state m) (grounded : m.Grounded) :
    ∃ m', h.Represents (h.run r.operation.run w).2.state m' ∧ m'.Grounded ∧ r.Complete (h.run r.operation.run w).1 :=
  Leads.request grounded admits.keeps (fun id mem => (live_iff represents).2 (admits.assigned id mem)) w represents
    admits.faultless

/-- Over a run, customers hold live segments after every request. -/
theorem served_grounded (represents : h.Represents w.state m) (grounded : m.Grounded)
    (admits : ∀ before r after, requests = before ++ r :: after → h.Admits r (h.served before w)) :
    ∃ m', h.Represents (h.served requests w).state m' ∧ m'.Grounded := by
  induction requests generalizing w m with
  | nil => exact ⟨m, represents, grounded⟩
  | cons r rest ih =>
    obtain ⟨mid, represents', grounded', _⟩ := (admits [] r rest rfl).step represents grounded
    exact ih represents' grounded' fun before r' after split => admits (r :: before) r' after (congrArg (r :: ·) split)

/-- Memberships lead to segments. After requests to stores that were empty at first, none of which meets a fault or puts
a customer into a segment that is not live at that moment, all segments of all customers are live, and no request
has answered that a size failed to move. In memory there are no faults and everything can be kept; on a server the
amounts, free-form members and rules that are requested have to be read back from their text. -/
theorem memberships_stay_live (h : Host) (clock : Nat → Instant) (supply : Nat → Uuid) (requests : List Request)
    (admits : ∀ before r after, requests = before ++ r :: after →
      h.Admits r (h.served before (.start h.empty clock supply))) :
    let world (run : List Request) := h.served run (.start h.empty clock supply)
    (∃ cs, h.answer .listCustomers (world requests) = .ok cs ∧
        ∀ c ∈ cs, ∀ id ∈ c.segments, ∃ g, h.answer (.getSegment id) (world requests) = .ok (some g)) ∧
      ∀ before r after a, requests = before ++ r :: after → (h.run r.operation.run (world before)).1 = .ok a →
        (r.deltas a).failed = [] := by
  intro world
  constructor
  · obtain ⟨m, represents, grounded⟩ :=
      served_grounded (w := .start h.empty clock supply) (represents_empty h) .empty admits
    obtain ⟨cs, listed, all⟩ := answer_listCustomers represents
    refine ⟨cs, listed, fun c mem id held => ?_⟩
    obtain ⟨key, known⟩ := Table.mem_values_iff.1 (all.mem_iff.2 mem)
    exact (live_iff represents).1 (grounded.held known id held)
  · rintro before r after a rfl accepted
    have sooner (first : List Request) (r' : Request) (later : List Request) (split : before = first ++ r' :: later) :
        h.Admits r' (h.served first (.start h.empty clock supply)) :=
      admits first r' (later ++ r :: after) (by rw [split, List.append_assoc, List.cons_append])
    obtain ⟨m, represents, grounded⟩ :=
      served_grounded (w := .start h.empty clock supply) (represents_empty h) .empty sooner
    obtain ⟨_, _, _, complete⟩ := (admits before r after rfl).step represents grounded
    change r.Complete (h.run r.operation.run (world before)).1 at complete
    rwa [accepted] at complete

/-- Ada is put into two segments, one of which is deleted afterwards. -/
theorem memberships_stay_live_of_ada :
    let requests : List Request :=
      [.createSegment ⟨"Regulars", none, [], true⟩ "ops", .createSegment ⟨"Lapsed", none, [], true⟩ "ops",
        .createCustomer ⟨{ Profile.named "Ada" with segments := .ofList [.counting 0, .counting 1] }, none⟩,
        .deleteSegment (.counting 0)]
    let world (run : List Request) := served .memory run (.start Memory.empty (fun _ => .epoch) Uuid.counting)
    ∃ ada, (world requests).state.customers.get? (.counting 2) = some ada ∧ ada.segments = .ofList [.counting 1] ∧
      ∃ g, answer .memory (.getSegment (.counting 1)) (world requests) = .ok (some g) := by
  intro requests world
  have assigned : ∀ id ∈ [Uuid.counting 0, Uuid.counting 1], ∃ g,
      answer .memory (.getSegment id) (world (requests.take 2)) = .ok (some g) := by
    have live : ∀ id ∈ [Uuid.counting 0, Uuid.counting 1],
        (world (requests.take 2)).state.segments.contains id = true := by
      decide +kernel
    exact fun id mem => (live_iff (h := .memory) (m := (world (requests.take 2)).state) rfl).1
      (Option.isSome_iff_exists.1 (live id mem))
  obtain ⟨⟨cs, listed, grounded⟩, _⟩ := memberships_stay_live .memory (fun _ => .epoch) Uuid.counting requests
    fun before r after split => by
      dsimp only [requests] at split
      rcases before with _ | ⟨_, _ | ⟨_, _ | ⟨_, _ | ⟨_, _ | _⟩⟩⟩⟩ <;> cases split
      · exact ⟨trivial, faultless_memory _ _, nofun⟩
      · exact ⟨trivial, faultless_memory _ _, nofun⟩
      · exact ⟨⟨trivial, trivial⟩, faultless_memory _ _, assigned⟩
      · exact ⟨trivial, faultless_memory _ _, nofun⟩
  let ada : Customer := ⟨.counting 2, { Profile.named "Ada" with segments := .ofList [.counting 1] }, .epoch, .epoch⟩
  have kept : (world requests).state.customers.get? (.counting 2) = some ada := by decide +kernel
  refine ⟨ada, kept, rfl, grounded ada ?_ _ (by decide)⟩
  have mem : ada ∈ newestFirst Customer.createdAt (world requests).state.customers.values :=
    (newestFirst_perm _ _).mem_iff.2 (Table.mem_values_iff.2 ⟨_, kept⟩)
  rw [answer_memory] at listed
  cases listed
  exact mem

end Store.Host

end CustomerSegments
