import CustomerSegments.Proofs.AudienceBalance
import CustomerSegments.Proofs.CommandFootprint
import CustomerSegments.Proofs.ContestedSwaps
import CustomerSegments.Proofs.ReachedStates
import CustomerSegments.Proofs.FaultlessRuns

namespace CustomerSegments

namespace Redis.HoldsSegments

variable {l : Layout} {s s' : Server} {t t' : Table Uuid Segment} {names names' : Table String Uuid} {id : Uuid}

/-- A segment whose record and whose size stay is read as before. -/
theorem getSegment_kept (holds : HoldsSegments l s t names) (holds' : HoldsSegments l s' t' names')
    (record : s'.get? (l.key (.segment id)) = s.get? (l.key (.segment id))) (known : t'.get? id = t.get? id) :
    ∃ found, Settles (l.getSegment id) s (.ok found) s ∧ Settles (l.getSegment id) s' (.ok found) s' := by
  cases live : t.get? id with
  | none => exact ⟨none, holds.getSegment_of_gone live, holds'.getSegment_of_gone (known.trans live)⟩
  | some g =>
    obtain ⟨r, loads, same⟩ := holds.loads id
    rw [live] at same
    cases r with
    | none => exact same.elim
    | some r =>
      have loads' : Loads Segment.decoder s' (l.segmentKey id.text) (some r) := by
        obtain ⟨text, stored, read⟩ := loads
        refine ⟨text, ?_, read⟩
        rw [Server.string?, show s'.get? (l.segmentKey id.text) = s.get? (l.segmentKey id.text) from record]
        exact stored
      refine ⟨some { r with audienceSize := g.audienceSize }, ?_, ?_⟩
      · exact (fetch_settles loads).bind ((holds.audienceSize live).bind (.pure _))
      · exact (fetch_settles loads').bind ((holds'.audienceSize (known.trans live)).bind (.pure _))

theorem findSegmentByName_of_leads {name : String} {o : Except Error (Option Segment)} (holds : HoldsSegments l s t names)
    (leads : names.get? name = some id) (read : Settles (l.getSegment id) s o s) :
    Settles (l.findSegmentByName name) s o s := by
  refine (holds.hget_names name).bind ?_
  rw [leads, Option.map_some, Option.bind_some, Uuid.ofText?_text]
  exact read

end Redis.HoldsSegments

namespace Store

open Redis

namespace Host

variable {h : Host} {w w' : World h.State} {m : Memory} {id : Uuid} {s : Segment}

theorem answered {c : Call} (represents : h.Represents w.state m) (stores : h.Stores c) (fits : c.Fits m)
    (exact : c.Exact m) : c.Agree (Memory.answer c (w.clock w.readings) m).1 (h.answer c w) := by
  obtain ⟨o, s', readings, ends, _, agree⟩ := call_ends represents stores fits
  rw [ends.answer]
  exact agree exact

/-- Only records that a call brings along can be out of reach of a server. -/
theorem Stores.of_storable {c : Call} (storable : c.Storable) : h.Stores c := by
  cases h with
  | memory => trivial
  | server l => exact storable

theorem answer_getSegment (represents : h.Represents w.state m) (id : Uuid) :
    ∃ found, h.answer (.getSegment id) w = .ok found ∧
      (m.segments.get? id).map Segment.undated = found.map Segment.undated :=
  (answered (c := .getSegment id) represents (.of_storable trivial) trivial trivial).exists_ok

theorem answer_getCustomer (represents : h.Represents w.state m) (id : Uuid) :
    h.answer (.getCustomer id) w = .ok (m.customers.get? id) := by
  obtain ⟨found, same, rfl⟩ :=
    (answered (c := .getCustomer id) represents (.of_storable trivial) trivial trivial).exists_ok
  exact same

theorem answer_listCustomers (represents : h.Represents w.state m) :
    ∃ cs, h.answer .listCustomers w = .ok cs ∧ m.customers.values.Perm cs := by
  obtain ⟨cs, same, all, _⟩ :=
    (answered (c := .listCustomers) represents (.of_storable trivial) trivial trivial).exists_ok
  exact ⟨cs, same, (newestFirst_perm _ _).symm.trans all⟩

theorem answer_findSegmentByName_of_free {name : String} (represents : h.Represents w.state m)
    (free : m.names.get? name = none) : h.answer (.findSegmentByName name) w = .ok none := by
  obtain ⟨found, same, alike⟩ :=
    (answered (c := .findSegmentByName name) represents (.of_storable trivial) trivial trivial).exists_ok
  have alike : ((m.names.get? name).bind m.segments.get?).map Segment.undated = found.map Segment.undated := alike
  rw [free, Option.bind_none, Option.map_none, eq_comm, Option.map_eq_none_iff] at alike
  rw [same, alike]

theorem answer_insertSegment_of_free (represents : h.Represents w.state m) (stores : h.Stores (.insertSegment s))
    (free : m.names.get? s.name = none) : h.answer (.insertSegment s) w = .ok () := by
  have agree := answered represents stores trivial trivial
  rw [Memory.answer_insertSegment_of_free free] at agree
  exact agree.exists_ok.choose_spec.1

/-- A name that leads to a segment is answered with what is stored under its identifier. -/
theorem answer_findSegmentByName_of_leads {name : String} (represents : h.Represents w.state m)
    (leads : m.names.get? name = some id) : h.answer (.findSegmentByName name) w = h.answer (.getSegment id) w := by
  cases h with
  | memory =>
    obtain rfl : w.state = m := represents
    have found : (w.state.names.get? name).bind w.state.segments.get? = w.state.segments.get? id := by
      rw [leads, Option.bind_some]
    rw [answer_memory, answer_memory]
    exact congrArg Except.ok found
  | server l =>
    obtain ⟨found, read, _⟩ := represents.segments.getSegment id
    have named := represents.segments.findSegmentByName_of_leads leads read
    exact (answer_server (c := .findSegmentByName name) named).trans (answer_server (c := .getSegment id) read).symm

theorem delete_ends (represents : h.Represents w.state m) (live : m.segments.get? id = some s) :
    ∃ k s' readings,
      h.Ends (Segments.delete id) w (.ok (m.customers.values.countP (id ∈ ·.segments)))
        { w with state := s', readings := readings } ∧
      h.Represents s' (m.dismiss s id (w.clock k)) := by
  obtain ⟨o, s₁, k, first, represents₁, agree⟩ :=
    call_ends (c := .deleteSegment id) represents (.of_storable trivial) trivial
  rw [Memory.answer_deleteSegment_of_live live] at represents₁ agree
  obtain ⟨found, rfl, alike⟩ := (agree trivial).exists_ok
  obtain ⟨g, rfl⟩ : ∃ g, found = some g := by
    cases found with
    | none => cases alike
    | some g => exact ⟨g, rfl⟩
  obtain ⟨o, s₂, readings, second, represents₂, agree⟩ :=
    call_ends (w := { w with state := s₁, readings := k }) (c := .removeSegmentFromAll id) represents₁
      (.of_storable trivial) trivial
  obtain ⟨n, rfl, rfl⟩ := (agree trivial).exists_ok
  exact ⟨k, s₂, readings, first.bind second, represents₂⟩

theorem delete_calls (id : Uuid) :
    Service.CallsOnly (fun c => c = .deleteSegment id ∨ c = .removeSegmentFromAll id) (Segments.delete id) := by
  refine .bind (.call (.inl rfl)) fun removed => ?_
  cases removed with
  | none => exact .throw _
  | some s => exact .call (.inr rfl)

/-- Another segment is read as before. -/
theorem answer_getSegment_of_delete {o : Except Error Nat} {now : Instant} (represents : h.Represents w.state m)
    (ends : h.Ends (Segments.delete id) w o w') (represents' : h.Represents w'.state (m.dismiss s id now)) {other : Uuid}
    (different : other ≠ id) : h.answer (.getSegment other) w' = h.answer (.getSegment other) w := by
  have known : (m.dismiss s id now).segments.get? other = m.segments.get? other := by
    rw [Memory.dismiss, Table.get?_erase, if_neg (Ne.symm different)]
  cases h with
  | memory =>
    obtain rfl : w.state = m := represents
    have state : w'.state = w.state.dismiss s id now := represents'
    rw [answer_memory, answer_memory, state]
    exact congrArg Except.ok known
  | server l =>
    have record : w'.state.get? (l.key (.segment other)) = w.state.get? (l.key (.segment other)) := by
      rw [← show (Server.run (l.realize (Segments.delete id).run) w).2 = w' from congrArg Prod.snd ends]
      refine Server.run_realize_keeps (delete_calls id).asks ?_ w
      rintro call (rfl | rfl) slot touches same
      · rw [← Layout.key_injective same] at touches
        rcases touches with same | same | same | same <;> cases same
        exact different rfl
      · rw [← Layout.key_injective same] at touches
        obtain ⟨_, same⟩ := touches
        cases same
    obtain ⟨found, read, read'⟩ := represents.segments.getSegment_kept represents'.segments record known
    exact (answer_server (c := .getSegment other) read').trans (answer_server (c := .getSegment other) read).symm

/-- The deletion of a live segment, in memory or on a server, in any state that calls can bring about. It answers
with the number of customers that held the segment. Then nobody holds it, it is missing, and its name is free. Its
holders lost this one membership, with a new time of their last update; all other customers, and all other segments
with their names and sizes, are as before. -/
theorem deletion_strips_one_segment (h : Host) (w : World h.State) (id : Uuid) (g : Segment)
    (reached : h.Reached w.state) (live : h.answer (.getSegment id) w = .ok (some g)) :
    let ran := h.run (Segments.delete id).run w
    let w' := ran.2
    ∃ cs cs' k, h.answer .listCustomers w = .ok cs ∧ h.answer .listCustomers w' = .ok cs' ∧
      ran.1 = .ok (cs.countP (id ∈ ·.segments)) ∧ (∀ c ∈ cs', id ∉ c.segments) ∧
      (∀ key, ∃ found, h.answer (.getCustomer key) w = .ok found ∧
        h.answer (.getCustomer key) w' = .ok (found.map (Customer.strip id (w.clock k)))) ∧
      (h.run (Segments.get id).run w').1 = .error (.missing .segment id) ∧
      h.answer (.findSegmentByName g.name) w' = .ok none ∧
      (∀ s, s.name = g.name → h.Stores (.insertSegment s) → h.answer (.insertSegment s) w' = .ok ()) ∧
      ∀ other, other ≠ id → h.answer (.getSegment other) w' = h.answer (.getSegment other) w ∧
        ∀ t, h.answer (.getSegment other) w = .ok (some t) →
          h.answer (.findSegmentByName t.name) w = .ok (some t) ∧
            h.answer (.findSegmentByName t.name) w' = .ok (some t) := by
  intro ran w'
  obtain ⟨m, represents, owned⟩ := reached.represents
  have known {key : Uuid} {t : Segment} (read : h.answer (.getSegment key) w = .ok (some t)) :
      ∃ s, m.segments.get? key = some s ∧ s.name = t.name := by
    obtain ⟨found, same, alike⟩ := answer_getSegment represents key
    cases read.symm.trans same
    obtain ⟨s, stored, alike⟩ := Option.map_eq_some_iff.1 alike
    have named : s.undated.name = t.undated.name := congrArg Segment.name alike
    exact ⟨s, stored, named⟩
  obtain ⟨s, stored, named⟩ := known live
  obtain ⟨k, s', readings, ends, represents'⟩ := delete_ends represents stored
  have world : w' = { w with state := s', readings := readings } := congrArg Prod.snd ends
  have ends' : h.Ends (Segments.delete id) w ran.1 w' := rfl
  have counted : ran.1 = .ok (m.customers.values.countP (id ∈ ·.segments)) := congrArg Prod.fst ends
  have represents' : h.Represents w'.state (m.dismiss s id (w.clock k)) := by
    rw [world]
    exact represents'
  have free : (m.dismiss s id (w.clock k)).names.get? g.name = none := by
    rw [Memory.dismiss, named, Table.get?_erase, if_pos rfl]
  obtain ⟨cs, listed, all⟩ := answer_listCustomers represents
  obtain ⟨cs', listed', all'⟩ := answer_listCustomers represents'
  refine ⟨cs, cs', k, listed, listed', ?_, ?_, ?_, ?_, answer_findSegmentByName_of_free represents' free, ?_, ?_⟩
  · rw [counted, all.countP_eq]
  · exact fun c mem => Memory.not_mem_of_dismiss (all'.mem_iff.2 mem)
  · intro key
    refine ⟨m.customers.get? key, answer_getCustomer represents key, ?_⟩
    rw [answer_getCustomer represents', Memory.dismiss, Table.get?_map]
  · obtain ⟨found, same, alike⟩ := answer_getSegment represents' id
    rw [Memory.dismiss, Table.get?_erase, if_pos rfl, Option.map_none, eq_comm, Option.map_eq_none_iff] at alike
    rw [alike] at same
    have first : h.Ends (call (.getSegment id)) w' (.ok none) (h.run (call (.getSegment id)).run w').2 := Prod.ext same rfl
    exact congrArg Prod.fst (first.bind (Ends.throw_iff.2 ⟨rfl, rfl⟩))
  · intro t same stores
    exact answer_insertSegment_of_free represents' stores (same ▸ free)
  · intro other different
    have kept := answer_getSegment_of_delete represents ends' represents' different
    refine ⟨kept, fun t read => ?_⟩
    obtain ⟨s₁, stored₁, named₁⟩ := known read
    have leads := owned.leads stored₁
    have leads' : (m.dismiss s id (w.clock k)).names.get? s₁.name = some other := by
      rw [Memory.dismiss, Table.get?_erase, if_neg fun same => ?_]
      · exact leads
      · rw [← same, owned.leads stored] at leads
        exact different (Option.some.inj leads).symm
    rw [named₁] at leads leads'
    rw [answer_findSegmentByName_of_leads represents leads, answer_findSegmentByName_of_leads represents' leads', kept]
    exact ⟨read, read⟩

/-- A customer who is in a segment. -/
def memberOf (segment : Uuid) : Customer :=
  ⟨Uuid.counting 2, { Profile.named "Ada" with segments := .ofList [segment] }, .epoch, .epoch⟩

theorem memberOf_storable (segment : Uuid) : (memberOf segment).toJson.Storable := by
  have bare : (Json.object []).Nestable := ⟨trivial, ⟨.nil, trivial⟩, by decide⟩
  exact Customer.storable_iff.2 ⟨readsBack_zero, bare⟩

/-- The deletion of a segment with one member from a server. -/
theorem deletion_strips_its_member :
    let h := server ⟨"audience", 1⟩
    let opened := h.run (call (.insertSegment whales)).run (.start h.empty (fun _ => .epoch) Uuid.counting)
    let w := (h.run (call (.insertCustomer (memberOf whales.id))).run opened.2).2
    h.Reached w.state ∧ (∃ g, h.answer (.getSegment whales.id) w = .ok (some g)) ∧
      (h.run (Segments.delete whales.id).run w).1 = .ok 1 := by
  intro h opened w
  have reached : h.Reached w.state := .call (.call .empty whales_storable) (memberOf_storable whales.id)
  have first : h.Represents opened.2.state _ := .called (represents_empty h) whales_storable trivial
  have represents : h.Represents w.state _ := .called first (memberOf_storable whales.id) trivial
  obtain ⟨found, read, alike⟩ := answer_getSegment represents whales.id
  obtain ⟨g, rfl⟩ : ∃ g, found = some g := by
    cases found with
    | none => cases alike
    | some g => exact ⟨g, rfl⟩
  obtain ⟨cs, _, _, listed, _, counted, _⟩ := deletion_strips_one_segment h w whales.id g reached read
  obtain ⟨cs', listed', all⟩ := answer_listCustomers represents
  cases listed.symm.trans listed'
  refine ⟨reached, ⟨g, read⟩, counted.trans ?_⟩
  rw [← all.countP_eq]
  rfl

end Host

end Store

end CustomerSegments
