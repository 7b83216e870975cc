import CustomerSegments.Proofs.AudienceCounts

namespace CustomerSegments

namespace Segment

variable {g g' : Segment}

theorem eq_of_undated (same : g.undated = g'.undated) : g' = { g with updatedAt := g'.updatedAt } := by
  cases g
  cases g'
  injection same
  simp_all

end Segment

namespace Memory

/-- The methods that write more of a segment than an addition to its size. -/
def segmentWrites : List Store.Method :=
  [.insertSegment, .updateSegment, .deleteSegment, .setAudienceSize]

variable {m : Memory}

/-- Every other call leaves all segments, with other sizes at most. -/
theorem segments_answer {c : Store.Call} (now : Instant) (apart : c.method ∉ segmentWrites) :
    ∃ size : Uuid → Segment → Int64, ∀ id, (answer c now m).2.segments.get? id =
      (m.segments.get? id).map fun g => { g with audienceSize := size id g } := by
  have changes := changes c now m
  generalize (answer c now m).2 = m' at changes ⊢
  cases changes with
  | insertSegment free | updateSegment live moved | deleteSegment live | setAudienceSize id size =>
    exact absurd (by simp [Store.Call.method, segmentWrites]) apart
  | nothing | insertCustomer c | updateCustomer live | deleteCustomer id | removeSegmentFromAll segment =>
    refine ⟨fun _ g => g.audienceSize, fun id => ?_⟩
    cases m.segments.get? id <;> rfl
  | incrementAudienceSize id delta =>
    refine ⟨fun other g => if id = other then g.audienceSize + delta else g.audienceSize, fun other => ?_⟩
    rw [bump, get?_revise]
    congr 1
    funext g
    by_cases same : id = other
    · simp only [if_pos same]
    · simp only [if_neg same]

end Memory

namespace Redis

variable {l : Layout} {s s' : Server} {t : Table Uuid Segment} {names : Table String Uuid}

theorem Touches.ne_segment {call : Store.Call} {slot : Slot} (touches : Touches call slot)
    (apart : call.method ∉ Memory.segmentWrites) (id : Uuid) : slot ≠ .segment id := by
  cases call with
  | insertSegment g | updateSegment g | deleteSegment id | setAudienceSize id size =>
    exact absurd (by simp [Store.Call.method, Memory.segmentWrites]) apart
  | getCustomer id | listCustomers | countMatching p | getSegment id | findSegmentByName name | listSegments | ping =>
    exact touches.elim
  | insertCustomer c | deleteCustomer other =>
    rintro rfl
    rcases touches with same | same <;> cases same
  | updateCustomer c | incrementAudienceSize other delta =>
    rintro rfl
    cases (show Slot.segment id = _ from touches)
  | removeSegmentFromAll segment =>
    rintro rfl
    obtain ⟨_, same⟩ := touches
    cases same

namespace HoldsSegments

/-- The times of the last changes of segments are left open. -/
theorem redated {f : Segment → Segment} (holds : HoldsSegments l s t names)
    (dates : ∀ g, f g = { g with updatedAt := (f g).updatedAt }) : HoldsSegments l s (t.map f) names where
  ids := by
    obtain ⟨ids, known, byText⟩ := holds.ids
    refine ⟨ids, known, byText.texts, fun id => ?_⟩
    rw [byText.get?_text, Table.get?_map, Option.map_map]
  record id := by
    obtain ⟨r, stored, same⟩ := holds.record id
    refine ⟨r, stored, ?_⟩
    rw [Table.get?_map]
    cases live : t.get? id with
    | none => rwa [live] at same
    | some g =>
      rw [live] at same
      cases r with
      | none => exact same.elim
      | some r =>
        refine ⟨same.1, ?_⟩
        rw [dates g, same.2]
  names := holds.names
  sizes := by
    obtain ⟨rows, stored, byText⟩ := holds.sizes
    refine ⟨rows, stored, byText.texts, fun id => ?_⟩
    rw [byText.get?_text, Table.get?_map, Option.map_map]
    congr 1
    funext g
    rw [Function.comp_apply, sizeText, sizeText, dates g]
  keyed {id g'} live := by
    rw [Table.get?_map, Option.map_eq_some_iff] at live
    obtain ⟨g, known, rfl⟩ := live
    have own : (f g).id = g.id := by rw [dates g]
    exact own.trans (holds.keyed known)

end HoldsSegments

end Redis

namespace Store.Host

open Redis

variable {h : Host} {w w' : World h.State} {m m' : Memory} {id : Uuid}

/-- A run never turns the clock back. -/
theorem run_follows {α : Type} (task : Store.Action α) (w : World h.State) : w.Follows (h.run task w).2 := by
  cases h with
  | memory => exact World.run_follows _ _ _
  | server l => exact World.run_follows _ _ _

theorem Ends.follows {α : Type} {op : Store.Operation α} {o : Except Error α} (ends : h.Ends op w o w') :
    w.Follows w' := by
  have follows := run_follows op.run w
  rwa [show h.run op.run w = (o, w') from ends] at follows

/-- A state that shows what a store in memory would keep, the times of the last changes of segments included. -/
structure Shows (h : Host) (state : h.State) (m : Memory) : Prop where
  represents : h.Represents state m
  segment : ∀ (w : World h.State) (id : Uuid), w.state = state → h.answer (.getSegment id) w = .ok (m.segments.get? id)

theorem shows_memory (m : Memory) : Shows .memory m m := by
  refine ⟨rfl, fun w id same => ?_⟩
  subst same
  exact answer_memory (.getSegment id) w

/-- What a server keeps can be shown: it knows when each segment was last changed. -/
theorem Represents.shows {state : h.State} (represents : h.Represents state m) :
    ∃ m', h.Shows state m' ∧ m'.customers = m.customers ∧ m'.names = m.names ∧
      ∀ id, (m'.segments.get? id).map Segment.undated = (m.segments.get? id).map Segment.undated := by
  cases h with
  | memory =>
    obtain rfl : state = m := represents
    exact ⟨_, shows_memory _, rfl, rfl, fun _ => rfl⟩
  | server l =>
    let started : World Server := .start state (fun _ => .epoch) Uuid.counting
    have seen (id : Uuid) : ∃ found : Option Segment, answer (.server l) (.getSegment id) started = .ok found ∧
        (m.segments.get? id).map Segment.undated = found.map Segment.undated := answer_getSegment represents id
    choose found read alike using seen
    let f (g : Segment) : Segment := { g with updatedAt := ((found g.id).getD g).updatedAt }
    have held := represents.segments.redated (f := f) fun _ => rfl
    refine ⟨⟨m.customers, m.segments.map f, m.names⟩, ⟨⟨represents.customers, held⟩, fun w id same => ?_⟩, rfl, rfl,
      fun id => ?_⟩
    · have again : answer (.server l) (.getSegment id) w = .ok (found id) :=
        (Looks.answer_congr (h := server l) (w := started) (.getSegment _ id) same).trans (read id)
      rw [again, Table.get?_map]
      have alike := alike id
      cases live : m.segments.get? id with
      | none =>
        rw [live, Option.map_none, eq_comm, Option.map_eq_none_iff] at alike
        rw [alike]
        rfl
      | some g =>
        rw [live] at alike
        have own := represents.segments.keyed live
        cases shown : found id with
        | none =>
          rw [shown] at alike
          cases alike
        | some g' =>
          rw [shown] at alike
          have dated : (f g).updatedAt = g'.updatedAt := by
            simp only [f, own, shown, Option.getD_some]
          rw [Segment.eq_of_undated (Option.some.inj alike), ← dated]
          rfl
    · rw [Table.get?_map, Option.map_map]
      rfl

theorem Reached.shows {state : h.State} (reached : h.Reached state) : ∃ m, h.Shows state m ∧ m.Owned := by
  obtain ⟨m, represents, owned⟩ := reached.represents
  obtain ⟨m', shows, _, names, alike⟩ := Represents.shows represents
  have known {id : Uuid} {s : Segment} (live : m'.segments.get? id = some s) :
      ∃ t, m.segments.get? id = some t ∧ t.id = s.id ∧ t.name = s.name := by
    have same := alike id
    rw [live, Option.map_some, eq_comm, Option.map_eq_some_iff] at same
    obtain ⟨t, live, same⟩ := same
    rw [Segment.eq_of_undated same]
    exact ⟨t, live, rfl, rfl⟩
  refine ⟨m', shows, fun live => ?_, fun live => ?_⟩
  · obtain ⟨t, stored, own, _⟩ := known live
    exact own.symm.trans (owned.own stored)
  · obtain ⟨t, stored, _, named⟩ := known live
    rw [names, ← named]
    exact owned.leads stored

namespace Shows

section

variable {l : Layout} {s s' : Server}

/-- A segment whose record stays is shown as before, with the size that it has. -/
theorem answer_of_kept (size : Segment → Int64) (shows : Shows (.server l) s m) (represents : Redis.Represents l s' m')
    (record : s'.get? (l.key (.segment id)) = s.get? (l.key (.segment id)))
    (known : m'.segments.get? id = (m.segments.get? id).map fun g => { g with audienceSize := size g })
    (w : World Server) (same : w.state = s') : answer (.server l) (.getSegment id) w = .ok (m'.segments.get? id) := by
  subst same
  cases live : m.segments.get? id with
  | none =>
    rw [live, Option.map_none] at known
    rw [known]
    exact answer_server (c := .getSegment id) (represents.segments.getSegment_of_gone known)
  | some g =>
    rw [live, Option.map_some] at known
    obtain ⟨r, loads, alike⟩ := shows.represents.segments.loads id
    rw [live] at alike
    cases r with
    | none => exact alike.elim
    | some r =>
      have loads' : Loads Segment.decoder w.state (l.segmentKey id.text) (some r) := by
        obtain ⟨text, stored, read⟩ := loads
        refine ⟨text, ?_, read⟩
        rw [Server.string?, show w.state.get? (l.segmentKey id.text) = s.get? (l.segmentKey id.text) from record]
        exact stored
      have before : Settles (l.getSegment id) s (.ok (some { r with audienceSize := g.audienceSize })) s :=
        (fetch_settles loads).bind ((shows.represents.segments.audienceSize live).bind (.pure _))
      have after : Settles (l.getSegment id) w.state (.ok (some { r with audienceSize := size g })) w.state :=
        (fetch_settles loads').bind ((represents.segments.audienceSize known).bind (.pure _))
      have shown := (answer_server (c := .getSegment id) (w := { w with state := s }) before).symm.trans
        (shows.segment { w with state := s } id rfl)
      rw [live] at shown
      have same : ({ r with audienceSize := g.audienceSize } : Segment) = g := Option.some.inj (Except.ok.inj shown)
      have sized : ({ g with audienceSize := size g } : Segment) = { r with audienceSize := size g } :=
        congrArg (fun g' : Segment => { g' with audienceSize := size g }) same.symm
      rw [known, sized]
      exact answer_server (c := .getSegment id) after

end

/-- A call is answered as in memory, and what it leaves shows what it leaves there. -/
theorem called {c : Call} (shows : h.Shows w.state m) (stores : h.Stores c) (fits : c.Fits m)
    (apart : c.method ∉ Memory.segmentWrites) :
    ∃ o s' readings, h.Ends (call c) w o { w with state := s', readings := readings } ∧
      h.Shows s' (Memory.answer c (w.clock w.readings) m).2 ∧
      (c.Exact m → c.Agree (Memory.answer c (w.clock w.readings) m).1 o) := by
  obtain ⟨o, s', readings, ends, represents, agree⟩ := call_ends shows.represents stores fits
  refine ⟨o, s', readings, ends, ⟨represents, fun w' id same => ?_⟩, agree⟩
  cases h with
  | memory =>
    obtain rfl : s' = _ := represents
    exact (shows_memory _).segment w' id same
  | server l =>
    have only : (call c).run.AsksOnly (Effect.Within fun call => call = c) := Program.asksOnly_request rfl
    have left : (Server.run (l.realize (call c).run) w).2.state = s' := congrArg (fun ended => ended.2.state) ends
    have record : s'.get? (l.key (.segment id)) = w.state.get? (l.key (.segment id)) := by
      rw [← left]
      refine Server.run_realize_keeps only ?_ w
      rintro call rfl slot touches same
      exact touches.ne_segment apart id (Layout.key_injective same).symm
    obtain ⟨size, known⟩ := Memory.segments_answer (m := m) (w.clock w.readings) apart
    exact answer_of_kept _ shows represents record (known id) w' same

theorem getSegment_ends (shows : h.Shows w.state m) (id : Uuid) :
    ∃ readings, h.Ends (call (.getSegment id)) w (.ok (m.segments.get? id)) { w with readings := readings } := by
  obtain ⟨readings, ends⟩ := (Looks.getSegment h id).ends w
  rw [shows.segment w id rfl] at ends
  exact ⟨readings, ends⟩

theorem findSegmentByName_ends (shows : h.Shows w.state m) (name : String) :
    ∃ readings, h.Ends (call (.findSegmentByName name)) w (.ok ((m.names.get? name).bind m.segments.get?))
      { w with readings := readings } := by
  obtain ⟨readings, ends⟩ := (Looks.findSegmentByName h name).ends w
  cases leads : m.names.get? name with
  | none =>
    rw [answer_findSegmentByName_of_free shows.represents leads] at ends
    exact ⟨readings, ends⟩
  | some id =>
    rw [answer_findSegmentByName_of_leads shows.represents leads, shows.segment w id rfl] at ends
    exact ⟨readings, ends⟩

/-- An addition that stays within 64 bits comes about if its segment is live. -/
theorem increment_of_fits {delta : Int64} (shows : h.Shows w.state m)
    (fits : (Call.incrementAudienceSize id delta).Fits m) :
    ∃ o s' readings, h.Ends (call (.incrementAudienceSize id delta)) w o { w with state := s', readings := readings } ∧
      h.Shows s' (m.bump delta id) ∧ Except.isOk o = m.segments.contains id := by
  obtain ⟨o, s', readings, ends, shows', _⟩ :=
    shows.called (c := .incrementAudienceSize id delta) (.of_storable trivial) fits
      (by simp [Call.method, Memory.segmentWrites])
  rw [Memory.answer_incrementAudienceSize] at shows'
  refine ⟨o, s', readings, ends, shows', ?_⟩
  have answered := ends.answer
  rw [Table.contains]
  cases h with
  | memory =>
    obtain rfl : w.state = m := shows.represents
    rw [answer_memory, Memory.answer_incrementAudienceSize] at answered
    rw [← answered]
    cases w.state.segments.get? id <;> rfl
  | server l =>
    cases live : m.segments.get? id with
    | none =>
      have refused := shows.represents.segments.incrementAudienceSize_of_gone live delta
      rw [← answered, answer_server (c := .incrementAudienceSize id delta) refused]
      rfl
    | some g =>
      obtain ⟨_, settles, _⟩ := shows.represents.segments.incrementAudienceSize_of_live live (fits.toInt_add live)
      rw [← answered, answer_server (c := .incrementAudienceSize id delta) settles]
      rfl

/-- An addition that leaves 64 bits is made in memory, and refused by a server. -/
theorem increment (shows : h.Shows w.state m) (id : Uuid) (delta : Int64) :
    ∃ o s' readings m', h.Ends (call (.incrementAudienceSize id delta)) w o { w with state := s', readings := readings } ∧
      h.Shows s' m' ∧ (m' = m ∨ m' = m.bump delta id) := by
  by_cases fits : (Call.incrementAudienceSize id delta).Fits m
  · obtain ⟨o, s', readings, ends, shows', _⟩ := increment_of_fits shows fits
    exact ⟨o, s', readings, _, ends, shows', .inr rfl⟩
  · cases h with
    | memory =>
      obtain rfl : w.state = m := shows.represents
      refine ⟨_, _, _, w.state.bump delta id, ends_memory (.incrementAudienceSize id delta) w, ?_, .inr rfl⟩
      rw [Memory.answer_incrementAudienceSize]
      exact shows_memory _
    | server l =>
      obtain ⟨g, live⟩ := Classical.not_forall.1 fits
      obtain ⟨live, overflows⟩ := Classical.not_imp.1 live
      have refused := shows.represents.segments.incrementAudienceSize_of_overflow live overflows
      obtain ⟨readings, ends⟩ := ends_server (c := .incrementAudienceSize id delta) (refused.run w rfl)
      exact ⟨_, w.state, readings, m, ends, shows, .inl rfl⟩

end Shows

end Store.Host

end CustomerSegments
