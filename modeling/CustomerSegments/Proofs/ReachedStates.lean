import CustomerSegments.Proofs.Hosts

namespace CustomerSegments

namespace Memory

/-- Every live segment lies under its own identifier, and its name leads to it. -/
structure Owned (m : Memory) : Prop where
  own : ∀ {id s}, m.segments.get? id = some s → s.id = id
  leads : ∀ {id s}, m.segments.get? id = some s → m.names.get? s.name = some id

namespace Owned

variable {m : Memory} {id : Uuid} {s old : Segment}

theorem empty : Owned Memory.empty :=
  ⟨nofun, nofun⟩

theorem revise {f : Segment → Segment} (owned : Owned m) (stays : ∀ s, (f s).id = s.id ∧ (f s).name = s.name) :
    Owned (m.revise id f) := by
  have before {other s'} (live : (m.revise id f).segments.get? other = some s') :
      ∃ s, m.segments.get? other = some s ∧ s'.id = s.id ∧ s'.name = s.name := by
    rw [get?_revise] at live
    obtain ⟨s, known, rfl⟩ := Option.map_eq_some_iff.1 live
    refine ⟨s, known, ?_⟩
    split
    · exact stays s
    · exact ⟨rfl, rfl⟩
  constructor
  · intro other s' live
    obtain ⟨s, known, same, _⟩ := before live
    exact same.trans (owned.own known)
  · intro other s' live
    obtain ⟨s, known, _, named⟩ := before live
    rw [names_revise, named]
    exact owned.leads known

/-- A name that nobody had leads to the segment that takes it. -/
theorem inserted (owned : Owned m) (free : m.names.get? s.name = none) :
    Owned { m with names := m.names.insert s.name s.id, segments := m.segments.insert s.id s } := by
  constructor
  · intro other s' live
    rw [Table.get?_insert] at live
    split at live
    · next same =>
      cases live
      exact same
    · exact owned.own live
  · intro other s' live
    rw [Table.get?_insert] at live ⊢
    split at live
    · next same =>
      cases live
      rw [if_pos rfl, same]
    · have leads := owned.leads live
      rw [if_neg fun same => ?_]
      · exact leads
      · rw [← same, free] at leads
        cases leads

/-- The old name belonged to the segment alone, and so does the new one. -/
theorem renamed {names : Table String Uuid} (owned : Owned m) (live : m.segments.get? s.id = some old)
    (moved : renamed? s.id old.name s.name m.names = some names) (size : Int64) :
    Owned { m with names := names, segments := m.segments.insert s.id { s with audienceSize := size } } := by
  have former := owned.leads live
  constructor
  · intro other s' live'
    rw [Table.get?_insert] at live'
    split at live'
    · next same =>
      cases live'
      exact same
    · exact owned.own live'
  · intro other s' live'
    rw [Table.get?_insert] at live'
    split at live'
    · next same =>
      cases live'
      rw [get?_renamed (fun _ => former) moved, if_pos rfl, same]
    · next different => exact (renamed_leads_iff former moved different).2 (owned.leads live')

theorem removed (owned : Owned m) (live : m.segments.get? id = some s) (customers : Table Uuid Customer) :
    Owned ⟨customers, m.segments.erase id, m.names.erase s.name⟩ := by
  constructor
  · intro other s' live'
    rw [Table.get?_erase] at live'
    split at live'
    · cases live'
    · exact owned.own live'
  · intro other s' live'
    rw [Table.get?_erase] at live' ⊢
    split at live'
    · cases live'
    · next different =>
      have leads := owned.leads live'
      rw [if_neg fun same => ?_]
      · exact leads
      · rw [← same, owned.leads live] at leads
        exact different (Option.some.inj leads)

/-- Every call keeps the names with their owners. -/
theorem answer (owned : Owned m) (c : Store.Call) (now : Instant) : Owned (Memory.answer c now m).2 := by
  have changes := changes c now m
  generalize (Memory.answer c now m).2 = m' at changes ⊢
  cases changes with
  | nothing => exact owned
  | insertCustomer c | updateCustomer live | deleteCustomer id | removeSegmentFromAll segment =>
    exact ⟨owned.own, owned.leads⟩
  | insertSegment free => exact owned.inserted free
  | updateSegment live moved => exact owned.renamed live moved _
  | deleteSegment live => exact owned.removed live m.customers
  | setAudienceSize id size | incrementAudienceSize id delta => exact owned.revise fun s => ⟨rfl, rfl⟩

end Owned

end Memory

namespace Store.Host

open Redis

/-- The states that calls can bring about, one after the other and at any times, of a store that was empty
at first. -/
inductive Reached (h : Host) : h.State → Prop
  | empty : Reached h h.empty
  | call {w : World h.State} {c : Call} (before : Reached h w.state) (stores : h.Stores c) :
      Reached h (h.run (Store.call c).run w).2.state

/-- What is reached on a server is what a store in memory would keep. An addition that leaves 64 bits is refused
there and leaves everything as it is. -/
theorem Reached.represents {h : Host} {state : h.State} (reached : h.Reached state) :
    ∃ m, h.Represents state m ∧ m.Owned := by
  induction reached with
  | empty => exact ⟨.empty, represents_empty h, .empty⟩
  | @call w c before stores ih =>
    obtain ⟨m, represents, owned⟩ := ih
    have later (fits : c.Fits m) : ∃ m, h.Represents (h.run (Store.call c).run w).2.state m ∧ m.Owned :=
      ⟨_, represents.called stores fits, owned.answer c _⟩
    cases c with
    | incrementAudienceSize id delta =>
      cases h with
      | memory =>
        obtain rfl : w.state = m := represents
        exact ⟨_, rfl, by
          rw [run, Service.runInMemory_call]
          exact owned.answer _ _⟩
      | server l =>
        by_cases fits : (Call.incrementAudienceSize id delta).Fits m
        · exact later fits
        · obtain ⟨g, live⟩ := Classical.not_forall.1 fits
          obtain ⟨live, overflows⟩ := Classical.not_imp.1 live
          have refused := represents.segments.incrementAudienceSize_of_overflow live overflows
          obtain ⟨readings, ran⟩ := refused.run w rfl
          refine ⟨m, ?_, owned⟩
          have left : (Server.run (l.operation (.incrementAudienceSize id delta)).run w).2 =
              { w with readings := readings } := congrArg Prod.snd ran
          rw [run, Layout.realize_call, left]
          exact represents
    | _ => exact later trivial

end Store.Host

end CustomerSegments
