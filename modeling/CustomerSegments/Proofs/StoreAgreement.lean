import CustomerSegments.Proofs.StoreRuns

namespace CustomerSegments.Store

open Redis

/-- A call that is answered alike in memory and by the server of a world, if its new size is given back,
and that leaves the two alike. -/
def Tracks (l : Layout) (w : World Server) (m : Memory) (c : Call) : Prop :=
  ∃ o s', SettlesIn w (l.operation c) o s' ∧
    Represents l s' (Memory.answer c (w.clock w.readings) m).2 ∧
    (c.Agree (Memory.answer c (w.clock w.readings) m).1 o ↔ c.Exact m)

namespace Tracks

variable {l : Layout} {w : World Server} {s' : Server} {m m' : Memory}

section

variable {c : Call} {a : c.Answer} {o : Except Error c.Result}

theorem of_agree (settles : SettlesIn w (l.operation c) o s')
    (known : Memory.answer c (w.clock w.readings) m = (a, m')) (agree : c.Agree a o) (exact : c.Exact m)
    (represents : Represents l s' m') : Tracks l w m c := by
  refine ⟨o, s', settles, ?_, ?_⟩
  · rw [known]
    exact represents
  · rw [known]
    exact iff_of_true agree exact

/-- A call with the same answer. -/
theorem of_settles (settles : Settles (l.operation c) w.state o s')
    (known : Memory.answer c (w.clock w.readings) m = (a, m')) (agree : c.Agree a o) (exact : c.Exact m) (represents : Represents l s' m') : Tracks l w m c :=
  of_agree (settles.run _ rfl) known agree exact represents

end

variable {c : Customer} {g : Segment}

theorem insertCustomer (represents : Represents l w.state m) (storable : c.toJson.Storable) :
    Tracks l w m (.insertCustomer c) := by
  obtain ⟨s', settles, held, keeps⟩ := represents.customers.insertCustomer storable
  exact .of_settles settles rfl rfl trivial (represents.withCustomers held keeps (by simp [Slot.ofCustomers]))

theorem getCustomer (represents : Represents l w.state m) (id : Uuid) : Tracks l w m (.getCustomer id) :=
  .of_settles (represents.customers.getCustomer id) rfl rfl trivial represents

theorem updateCustomer (represents : Represents l w.state m) (storable : c.toJson.Storable) :
    Tracks l w m (.updateCustomer c) := by
  cases live : m.customers.get? c.id with
  | none =>
    exact .of_settles (represents.customers.updateCustomer_of_gone live) (Memory.answer_updateCustomer_of_gone live _)
      rfl trivial represents
  | some old =>
    obtain ⟨s', settles, held, keeps⟩ := represents.customers.updateCustomer_of_live storable live
    exact .of_settles settles (Memory.answer_updateCustomer_of_live live _) rfl trivial
      (represents.withCustomers held keeps (by simp [Slot.ofCustomers]))

theorem deleteCustomer (represents : Represents l w.state m) (id : Uuid) : Tracks l w m (.deleteCustomer id) := by
  obtain ⟨s', settles, held, keeps⟩ := represents.customers.deleteCustomer id
  exact .of_settles settles rfl rfl trivial (represents.withCustomers held keeps (by simp [Slot.ofCustomers]))

theorem listCustomers (represents : Represents l w.state m) : Tracks l w m .listCustomers := by
  obtain ⟨listed, settles, all⟩ := represents.customers.listCustomers
  have same : (newestFirst Customer.createdAt m.customers.values).Perm (newestFirst Customer.createdAt listed) :=
    ((newestFirst_perm _ _).trans all.symm).trans (newestFirst_perm _ _).symm
  exact .of_settles settles rfl ⟨same, newestFirst_times (all.symm.map _)⟩ trivial represents

theorem countMatching (represents : Represents l w.state m) (p : Predicate) : Tracks l w m (.countMatching p) :=
  .of_settles (represents.customers.countMatching p) rfl rfl trivial represents

theorem removeSegmentFromAll (represents : Represents l w.state m) (segment : Uuid) :
    Tracks l w m (.removeSegmentFromAll segment) := by
  obtain ⟨s', settles, held, changed, own, keeps⟩ :=
    HoldsCustomers.removeSegmentFromAll represents.customers segment
  exact .of_agree settles rfl rfl trivial (represents.withCustomers held keeps own)

theorem insertSegment (represents : Represents l w.state m) (storable : g.toJson.Storable) :
    Tracks l w m (.insertSegment g) := by
  cases taken : m.names.get? g.name with
  | some owner =>
    exact .of_settles (represents.segments.insertSegment_of_taken taken) (Memory.answer_insertSegment_of_taken taken _)
      rfl trivial represents
  | none =>
    obtain ⟨s', settles, held, keeps⟩ := represents.segments.insertSegment_of_free storable taken
    exact .of_settles settles (Memory.answer_insertSegment_of_free taken _) rfl trivial
      (represents.withSegments held keeps (by simp [Slot.ofCustomers]))

theorem getSegment (represents : Represents l w.state m) (id : Uuid) : Tracks l w m (.getSegment id) := by
  obtain ⟨found, settles, same⟩ := represents.segments.getSegment id
  exact .of_settles settles rfl same.symm trivial represents

theorem findSegmentByName (represents : Represents l w.state m) (name : String) :
    Tracks l w m (.findSegmentByName name) := by
  obtain ⟨found, settles, same⟩ := represents.segments.findSegmentByName name
  exact .of_settles settles rfl same.symm trivial represents

theorem updateSegment (represents : Represents l w.state m) (storable : g.toJson.Storable) :
    Tracks l w m (.updateSegment g) := by
  cases live : m.segments.get? g.id with
  | none =>
    exact .of_settles (represents.segments.updateSegment_of_gone live) (Memory.answer_updateSegment_of_gone live _)
      rfl trivial represents
  | some old =>
    cases moved : Memory.renamed? g.id old.name g.name m.names with
    | none =>
      exact .of_settles (represents.segments.updateSegment_of_taken live moved)
        (Memory.answer_updateSegment_of_taken live moved _) rfl trivial represents
    | some names =>
      obtain ⟨s', settles, held, keeps⟩ := represents.segments.updateSegment_of_free storable live moved
      exact .of_settles settles (Memory.answer_updateSegment_of_free live moved _) rfl trivial
        (represents.withSegments held keeps (by simp [Slot.ofCustomers]))

theorem deleteSegment (represents : Represents l w.state m) (id : Uuid) : Tracks l w m (.deleteSegment id) := by
  cases live : m.segments.get? id with
  | none =>
    exact .of_settles (represents.segments.deleteSegment_of_gone live) (Memory.answer_deleteSegment_of_gone live _)
      rfl trivial represents
  | some g =>
    obtain ⟨found, s', settles, same, held, keeps⟩ := represents.segments.deleteSegment_of_live live
    exact .of_settles settles (Memory.answer_deleteSegment_of_live live _) (congrArg some same.symm) trivial
      (represents.withSegments held keeps (by simp [Slot.ofCustomers]))

theorem listSegments (represents : Represents l w.state m) : Tracks l w m .listSegments := by
  obtain ⟨listed, settles, all⟩ := represents.segments.listSegments
  have times := all.symm.map Segment.createdAt
  rw [List.map_map, List.map_map] at times
  have same : ((newestFirst Segment.createdAt m.segments.values).map Segment.undated).Perm
      ((newestFirst Segment.createdAt listed).map Segment.undated) :=
    (((newestFirst_perm _ _).map _).trans all.symm).trans ((newestFirst_perm _ _).map _).symm
  exact .of_settles settles rfl ⟨same, newestFirst_times times⟩ trivial represents

theorem setAudienceSize (represents : Represents l w.state m) (id : Uuid) (size : Int64) :
    Tracks l w m (.setAudienceSize id size) := by
  cases live : m.segments.get? id with
  | none =>
    have known : Memory.answer (.setAudienceSize id size) (w.clock w.readings) m = (.error (.missing .segment id), m) := by
      simp only [Memory.answer, live]
    exact .of_settles (represents.segments.setAudienceSize_of_gone live size) known rfl trivial represents
  | some g =>
    have known : Memory.answer (.setAudienceSize id size) (w.clock w.readings) m =
        (.ok (), { m with segments := m.segments.insert id { g with audienceSize := size, updatedAt := w.clock w.readings } }) := by
      simp only [Memory.answer, live]
    obtain ⟨s', settles, held, keeps⟩ := represents.segments.setAudienceSize_of_live live size (w.clock w.readings)
    exact .of_settles settles known rfl trivial (represents.withSegments held keeps (by simp [Slot.ofCustomers]))

/-- The two answers are equal only if a script gives the new size back. -/
theorem incrementAudienceSize {id : Uuid} {delta : Int64} (represents : Represents l w.state m)
    (fits : (Call.incrementAudienceSize id delta).Fits m) : Tracks l w m (.incrementAudienceSize id delta) := by
  cases live : m.segments.get? id with
  | none =>
    have known : Memory.answer (.incrementAudienceSize id delta) (w.clock w.readings) m = (.error (.missing .segment id), m) := by
      simp only [Memory.answer, live]
    have exact : (Call.incrementAudienceSize id delta).Exact m := fun g found => by
      rw [live] at found
      cases found
    exact .of_settles (represents.segments.incrementAudienceSize_of_gone live delta) known rfl exact represents
  | some g =>
    have known : Memory.answer (.incrementAudienceSize id delta) (w.clock w.readings) m =
        (.ok (g.audienceSize + delta),
          { m with segments := m.segments.insert id { g with audienceSize := g.audienceSize + delta } }) := by
      simp only [Memory.answer, live]
    -- What is stored is the sum itself; only the answer passes through a double.
    obtain ⟨s', settles, held, keeps⟩ := represents.segments.incrementAudienceSize_of_live live (fits.toInt_add live)
    refine ⟨_, s', settles.run _ rfl, ?_, ?_⟩
    · rw [known]
      exact represents.withSegments held keeps (by simp [Slot.ofCustomers])
    · rw [known]
      have given := Server.throughScript_fits (g.audienceSize + delta).toInt
      constructor
      · intro same g' found
        have same : g.audienceSize + delta = Int64.ofInt (Server.throughScript (g.audienceSize + delta).toInt) := same
        rw [live, Option.some.injEq] at found
        subst found
        have read := congrArg Int64.toInt same
        rw [Int64.toInt_ofInt_of_le (by omega) (by omega)] at read
        exact read.symm
      · intro exact
        have same : Int64.ofInt (Server.throughScript (g.audienceSize + delta).toInt) = g.audienceSize + delta := by
          rw [exact g live, Int64.ofInt_toInt]
        exact same.symm

theorem ping (represents : Represents l w.state m) : Tracks l w m .ping :=
  .of_settles (.send rfl) rfl rfl trivial represents

theorem of_represents {c : Call} (represents : Represents l w.state m) (storable : c.Storable) (fits : c.Fits m) :
    Tracks l w m c := by
  cases c with
  | insertCustomer c => exact insertCustomer represents storable
  | getCustomer id => exact getCustomer represents id
  | updateCustomer c => exact updateCustomer represents storable
  | deleteCustomer id => exact deleteCustomer represents id
  | listCustomers => exact listCustomers represents
  | countMatching p => exact countMatching represents p
  | removeSegmentFromAll segment => exact removeSegmentFromAll represents segment
  | insertSegment g => exact insertSegment represents storable
  | getSegment id => exact getSegment represents id
  | findSegmentByName name => exact findSegmentByName represents name
  | updateSegment g => exact updateSegment represents storable
  | deleteSegment id => exact deleteSegment represents id
  | listSegments => exact listSegments represents
  | setAudienceSize id size => exact setAudienceSize represents id size
  | incrementAudienceSize id delta => exact incrementAudienceSize represents fits
  | ping => exact ping represents

end Tracks

section

variable {l : Layout} {s : Server} {m : Memory}

theorem TimedCall.of_tracks {c : TimedCall} (tracks : Tracks l (.start s c.clock Uuid.counting) m c.call) :
    Represents l (c.onServer l s).2 (c.inMemory m).2 ∧
      (c.call.Agree (c.inMemory m).1 (c.onServer l s).1 ↔ c.call.Exact m) := by
  obtain ⟨o, s', ⟨readings, ran⟩, represents, agree⟩ := tracks
  have served : c.onServer l s = (o, s') := by
    rw [TimedCall.onServer, ran]
    rfl
  rw [served]
  exact ⟨represents, agree⟩

/-- The keys of the server hold what is in memory after every call. -/
theorem represents_after {calls : List TimedCall} (represents : Represents l s m) (sound : Sound calls m) :
    Represents l (serverAfter l calls s) (memoryAfter calls m) := by
  induction calls generalizing s m with
  | nil => exact represents
  | cons c rest ih =>
    obtain ⟨storable, fits, later⟩ := sound
    exact ih (TimedCall.of_tracks (.of_represents represents storable fits)).1 later

/-- After the same calls on an empty store in memory and on an empty server, whatever the layout, a
call is answered alike by both exactly if a script gives back the size that it may ask for. -/
theorem answers_agree_iff (l : Layout) {before : List TimedCall} {c : TimedCall} (sound : Sound (before ++ [c]) .empty) :
    c.call.Agree (c.inMemory (memoryAfter before .empty)).1 (c.onServer l (serverAfter l before .empty)).1 ↔
      c.call.Exact (memoryAfter before .empty) := by
  obtain ⟨first, storable, fits, -⟩ := sound.of_append
  exact (TimedCall.of_tracks (.of_represents (represents_after (.empty l) first) storable fits)).2

end

/-- A segment without rules. -/
def whales : Segment where
  id := Uuid.counting 1
  name := "Whales"
  description := none
  rules := []
  audienceSize := 0
  isActive := true
  createdAt := .epoch
  updatedAt := .epoch
  createdBy := "ops"

theorem whales_storable : whales.toJson.Storable :=
  Segment.storable_iff.2 ⟨trivial, trivial, by decide⟩

/-- A new size that a double does not hold is answered by the server as its neighbour. -/
theorem answers_differ_past_doubles :
    let opened : List TimedCall :=
      [⟨.insertSegment whales, fun _ => .epoch⟩, ⟨.setAudienceSize whales.id 9007199254740992, fun _ => .epoch⟩]
    let grown : TimedCall := ⟨.incrementAudienceSize whales.id 1, fun _ => .epoch⟩
    let layout : Layout := ⟨"audience", 100⟩
    Sound (opened ++ [grown]) .empty ∧
      ¬ grown.call.Agree (grown.inMemory (memoryAfter opened .empty)).1
        (grown.onServer layout (serverAfter layout opened .empty)).1 := by
  intro opened grown layout
  have live : (memoryAfter opened .empty).segments.get? whales.id =
      some { whales with audienceSize := 9007199254740992 } := rfl
  have sound : Sound (opened ++ [grown]) .empty := by
    refine ⟨whales_storable, trivial, trivial, trivial, trivial, fun s found => ?_, trivial⟩
    have same := Option.some.inj (found.symm.trans live)
    subst same
    decide
  refine ⟨sound, ?_⟩
  rw [answers_agree_iff layout sound]
  intro exact
  have same := exact _ live
  revert same
  decide

end CustomerSegments.Store
