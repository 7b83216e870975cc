import CustomerSegments.Proofs.AudienceConservation
import CustomerSegments.Proofs.HostAnswers
import CustomerSegments.Proofs.RepresentedRuns
import CustomerSegments.Proofs.SegmentDeletion

namespace CustomerSegments

/-- The size of a page plays no part in what is stored. -/
theorem Redis.Represents.paged {l : Layout} {s : Server} {m : Memory} (represents : Represents l s m) (pageSize : Nat) :
    Represents { l with pageSize := pageSize } s m where
  customers := ⟨represents.customers.ids, represents.customers.record, represents.customers.sound⟩
  segments := ⟨represents.segments.ids, represents.segments.record, represents.segments.names, represents.segments.sizes,
    represents.segments.keyed⟩

namespace Store.Host

open Redis Service

variable {h : Host} {w w' : World h.State} {m : Memory} {cs : List Customer} {id : Uuid} {now : Instant}
  {rules : List Rule}

/-- The number of customers that a rule list means at a time. -/
def meant (cs : List Customer) (rules : List Rule) (now : Instant) : Nat :=
  cs.countP fun c => (compile rules now).predicate.holds c.toJson

/-- The predicate that holds of nobody is not asked of the store, which would count nobody. -/
theorem count_ends (p : Predicate) (known : h.customers w.state = .ok cs) :
    ∃ readings, h.Ends (Audience.count p) w (.ok (cs.countP fun c => p.holds c.toJson))
      { w with readings := readings } := by
  unfold Audience.count
  split
  · next isNothing =>
    have none : p = .nothing := by
      cases p <;> first | rfl | cases isNothing
    have zero : (cs.countP fun c => p.holds c.toJson) = 0 := by
      simp [none, Predicate.holds]
    rw [zero]
    exact ⟨w.readings, Ends.pure_iff.2 ⟨rfl, rfl⟩⟩
  · obtain ⟨readings, ends⟩ := (Looks.countMatching h p).ends w
    rw [answer_countMatching_of_listed p known] at ends
    exact ⟨readings, ends⟩

theorem run_noteDrops (dropped : List Drop) (w : World h.State) :
    ∃ tallies, h.run (Audience.noteDrops dropped) w = ((), { w with tallies := tallies }) := by
  induction dropped generalizing w with
  | nil => exact ⟨w.tallies, run_pure ()⟩
  | cons drop rest ih =>
    obtain ⟨tallies, ran⟩ := ih (w.note .rulesDropped 1)
    refine ⟨tallies, ?_⟩
    rw [Audience.noteDrops, run_bind, run_tally]
    exact ran

/-- The rules are compiled at the time that is read first. -/
theorem countRules_ends (rules : List Rule) (time : w.clock w.readings = now) (known : h.customers w.state = .ok cs) :
    ∃ readings tallies, h.Ends (Audience.countRules rules) w (.ok (meant cs rules now))
      { w with readings := readings, tallies := tallies } := by
  obtain ⟨tallies, noted⟩ := run_noteDrops (compile rules (w.clock w.readings)).dropped w.tick
  obtain ⟨readings, counted⟩ := count_ends (w := { w.tick with tallies := tallies })
    (compile rules (w.clock w.readings)).predicate known
  refine ⟨readings, tallies, Ends.now_bind_iff.2 (Ends.sure_bind_iff.2 ?_)⟩
  rw [noted, meant, ← time]
  exact counted

/-- The size of a segment that is there, as it is seen. -/
structure Sized (h : Host) (id : Uuid) (n : Nat) (w : World h.State) : Prop where
  there : h.answer (.getSegment id) w ≠ .ok none
  size : ∀ g, h.answer (.getSegment id) w = .ok (some g) → g.audienceSize = Audience.storedSize n

theorem recompute_yields (time : w.clock w.readings = now) (known : h.customers w.state = .ok cs)
    (there : h.HasSegment id w.state) :
    h.Yields (Audience.recompute id rules) w fun size w' =>
      size = meant cs rules now ∧ h.Sized id (meant cs rules now) w' := by
  obtain ⟨readings, tallies, counted⟩ := countRules_ends rules time known
  obtain ⟨s', later, written, fault, sized⟩ := setAudienceSize_ends id (Audience.storedSize (meant cs rules now))
    { w with readings := readings, tallies := tallies }
  refine Yields.bind (Q := fun n w' =>
    n = meant cs rules now ∧ w' = { w with readings := readings, tallies := tallies })
    (.of_ends counted ⟨rfl, rfl⟩) ?_
  rintro _ _ ⟨rfl, rfl⟩
  refine Yields.bind (Q := fun _ w' => w'.state = s' ∧ h.answer (.setAudienceSize id _) _ = .ok ())
    (.call written (fault there) fun _ done => ⟨rfl, done⟩) ?_
  rintro _ w₁ ⟨same, done⟩
  refine Yields.bind (Q := fun _ w' => w'.state = s') (.sure ?_) fun _ w₂ same =>
    .pure ⟨rfl, (sized done there w₂ same).1, (sized done there w₂ same).2⟩
  rw [run_tally]
  exact same

/-- A segment that is stored is got as it is seen. -/
theorem get_yields {post : Segment → World h.State → Prop} (there : h.answer (.getSegment id) w ≠ .ok none)
    (later : ∀ g readings, h.answer (.getSegment id) w = .ok (some g) → post g { w with readings := readings }) :
    h.Yields (Segments.get id) w post := by
  obtain ⟨readings, looked⟩ := (Looks.getSegment h id).ends w
  refine Yields.bind (Q := fun found w' =>
    ∃ g, found = some g ∧ h.answer (.getSegment id) w = .ok (some g) ∧ w' = { w with readings := readings })
    (.call looked (faultOnly_getSegment h id w) fun found read => ?_) ?_
  · cases found with
    | none => exact absurd read there
    | some g => exact ⟨g, rfl, read, rfl⟩
  · rintro _ _ ⟨g, rfl, read, rfl⟩
    exact .pure (later g readings read)

/-- An operation that stores a rule list ends in a result, which has a property in the world that is left, unless it
meets a fault of the store; and it meets none if the rules can be kept. -/
structure Completes {α : Type} (h : Host) (op : Operation α) (w : World h.State) (rules : List Rule)
    (post : α → World h.State → Prop) : Prop where
  yields : h.Yields op w post
  faultless : h.KeepsRules rules → h.Faultless op.run w

namespace Completes

variable {α : Type} {op : Operation α} {post : α → World h.State → Prop}

theorem ends (completes : h.Completes op w rules post) (keeps : h.KeepsRules rules) :
    ∃ a w', h.Ends op w (.ok a) w' ∧ post a w' :=
  completes.yields (completes.faultless keeps)

end Completes

end Store.Host

namespace Store.Host

open Redis Service

variable {h : Host} {w w' : World h.State} {m : Memory} {cs : List Customer} {id : Uuid} {now : Instant}
  {rules : List Rule} {g stored : Segment}

section

variable {c : Customer}

/-- The store after a segment and a customer were inserted. -/
def occupied (h : Host) (c : Customer) : World h.State :=
  (h.run (call (.insertCustomer c)).run
    (h.run (call (.insertSegment whales)).run (.start h.empty (fun _ => .epoch) Uuid.counting)).2).2

/-- What is left in memory then. -/
def occupant (c : Customer) : Memory :=
  (Memory.answer (.insertCustomer c) .epoch (Memory.answer (.insertSegment whales) .epoch .empty).2).2

theorem values_occupant (c : Customer) : (occupant c).customers.values = [c] := rfl

theorem reached_occupied (stores : h.Stores (.insertCustomer c)) : h.Reached (h.occupied c).state :=
  .call (.call .empty (.of_storable whales_storable)) stores

theorem occupied_represents (stores : h.Stores (.insertCustomer c)) :
    h.Represents (h.occupied c).state (occupant c) ∧ (∀ k, (h.occupied c).clock k = .epoch) ∧
      (h.occupied c).supply (h.occupied c).issued.length = .counting 0 := by
  obtain ⟨_, s, readings, opened, represents, _⟩ := call_ends (c := .insertSegment whales)
    (w := .start h.empty (fun _ => .epoch) Uuid.counting) (represents_empty h) (.of_storable whales_storable) trivial
  obtain ⟨_, s', readings', joined, represents', _⟩ :=
    call_ends (w := { (.start s (fun _ => .epoch) Uuid.counting : World h.State) with readings := readings }) represents
      stores trivial
  have left : h.occupied c =
      { (.start s' (fun _ => .epoch) Uuid.counting : World h.State) with readings := readings' } := by
    have first : h.run (call (.insertSegment whales)).run (.start h.empty (fun _ => .epoch) Uuid.counting) = _ := opened
    rw [occupied, first]
    exact congrArg Prod.snd joined
  rw [left]
  exact ⟨represents', fun _ => rfl, rfl⟩

end

end Store.Host

end CustomerSegments
