import CustomerSegments.Proofs.Rejections

namespace CustomerSegments

namespace Memory

/-- The store with a segment under its identifier and its name. -/
def adopt (s : Segment) (m : Memory) : Memory :=
  { m with names := m.names.insert s.name s.id, segments := m.segments.insert s.id s }

variable {m : Memory} {s : Segment} {now : Instant}

theorem get?_adopt : (m.adopt s).segments.get? s.id = some s := by
  rw [adopt, Table.get?_insert, if_pos rfl]

theorem resize_adopt {size : Int64} :
    (m.adopt s).resize s.id size now = m.adopt { s with audienceSize := size, updatedAt := now } := by
  simp only [resize, revise, get?_adopt]
  simp only [adopt, Table.insert_insert]

end Memory

/-- A segment that is as a client asked for it, whatever its identifier, its times and its size. -/
structure NewSegment.Describes (request : NewSegment) (createdBy : String) (s : Segment) : Prop where
  name : s.name = Text.trim request.name
  description : s.description = request.description
  rules : s.rules = request.rules
  isActive : s.isActive = request.isActive
  createdBy : s.createdBy = createdBy

namespace NewSegment.Describes

variable {request : NewSegment} {createdBy : String} {s t : Segment}

theorem kept (described : request.Describes createdBy s)
    (same : t = { s with audienceSize := t.audienceSize, updatedAt := t.updatedAt }) : request.Describes createdBy t := by
  rw [same]
  exact ⟨described.name, described.description, described.rules, described.isActive, described.createdBy⟩

/-- Two segments made of one request differ by their identifiers, their times and their sizes alone. -/
theorem unique (first : request.Describes createdBy s) (second : request.Describes createdBy t) :
    t = { s with id := t.id, audienceSize := t.audienceSize, createdAt := t.createdAt, updatedAt := t.updatedAt } := by
  cases t
  simp only [Segment.mk.injEq, true_and]
  exact ⟨second.name.trans first.name.symm, second.description.trans first.description.symm,
    second.rules.trans first.rules.symm, second.isActive.trans first.isActive.symm,
    second.createdBy.trans first.createdBy.symm⟩

end NewSegment.Describes

/-- A request for a new segment added one that is as described, with the number of customers that its rules
meant at one of the readings of the clock in between. -/
structure NewSegment.Fulfilled (request : NewSegment) (createdBy : String) (w : World Memory) (s : Segment)
    (w' : World Memory) : Prop where
  described : request.Describes createdBy s
  counted : ∃ k, w.readings ≤ k ∧ k < w'.readings ∧
    s.audienceSize = Audience.storedSize (w.state.audience request.rules (w.clock k))
  state : w'.state = w.state.adopt s

namespace Segments

open Store Service

variable {failing : List Method} {w w' : World Memory} {o : Except Error Segment} {request : NewSegment}
  {createdBy : String}

/-- A segment with a name that nobody has is not stored if the name cannot be looked up or the segment cannot
be inserted, and is stored and counted otherwise. -/
theorem create_of_free (filled : Text.trim request.name ≠ "")
    (free : w.state.names.get? (Text.trim request.name) = none)
    (ends : Ends failing (create request createdBy) w o w') :
    ((Method.findSegmentByName ∈ failing ∨ Method.insertSegment ∈ failing) ∧ w'.state = w.state) ∨
      (Method.findSegmentByName ∉ failing ∧ Method.insertSegment ∉ failing) ∧
        ∃ s mid, request.Describes createdBy s ∧ s.audienceSize = 0 ∧ w.Follows mid ∧ mid.state = w.state.adopt s ∧
          Ends failing (recount s.id s.rules) mid o w' := by
  unfold create at ends
  rcases Ends.settled_bind_iff.1 ends with ⟨name, valid, ends⟩ | ⟨e, invalid, _⟩
  · obtain ⟨rfl, _⟩ := validName_eq_ok_iff.1 valid
    rcases Ends.call_bind_iff.1 ends with ⟨fails, _, rfl⟩ | ⟨looks, ⟨found, answered, ends⟩ | ⟨e, answered, _⟩⟩
    · exact .inl ⟨.inl fails, rfl⟩
    · cases answered
      simp only [free, Option.bind_none, Option.isSome_none, Bool.false_eq_true, if_false] at ends
      have ends := Ends.freshId_bind_iff.1 (Ends.now_bind_iff.1 ends)
      let s := request.segment (w.supply w.issued.length) (Text.trim request.name) (w.clock (w.readings + 1)) createdBy
      let before := (w.next w.state).tick.issue .segment
      have follows : w.Follows before :=
        (w.follows_next _).trans ((World.idles_tick _).follows.trans (World.follows_issue _ _))
      have unclaimed : before.state.names.get? s.name = none := free
      have stored := Memory.answer_insertSegment_of_free unclaimed (before.clock before.readings)
      rcases Ends.call_bind_iff.1 ends with ⟨fails, _, rfl⟩ | ⟨inserts, ⟨_, answered, ends⟩ | ⟨e, refused, _⟩⟩
      · exact .inl ⟨.inr fails, rfl⟩
      · have described : request.Describes createdBy s := ⟨rfl, rfl, rfl, rfl, rfl⟩
        exact .inr ⟨⟨looks, inserts⟩, s, _, described, rfl, follows.trans (World.follows_next _ _),
          congrArg Prod.snd stored, ends⟩
      · have refused : (Memory.answer (.insertSegment s) (before.clock before.readings) before.state).1 = .error e := refused
        rw [stored] at refused
        cases refused
    · cases answered
  · exact absurd (validName_eq_error_iff.1 invalid).2 filled

/-- A name that leads to a segment is refused to a new one. -/
theorem create_of_taken {s : Segment} (filled : Text.trim request.name ≠ "")
    (taken : (w.state.names.get? (Text.trim request.name)).bind w.state.segments.get? = some s)
    (ends : Ends [] (create request createdBy) w o w') :
    o = .error (.duplicateName (Text.trim request.name)) ∧ w'.state = w.state := by
  unfold create at ends
  rcases Ends.settled_bind_iff.1 ends with ⟨name, valid, ends⟩ | ⟨e, invalid, _⟩
  · obtain ⟨rfl, _⟩ := validName_eq_ok_iff.1 valid
    rcases Ends.call_bind_iff.1 ends with ⟨fails, _⟩ | ⟨_, ⟨found, answered, ends⟩ | ⟨e, answered, _⟩⟩
    · cases fails
    · cases answered
      simp only [taken, Option.isSome_some, if_true] at ends
      obtain ⟨refused, rfl⟩ := Ends.throw_bind_iff.1 ends
      exact ⟨refused, rfl⟩
    · cases answered
  · exact absurd (validName_eq_error_iff.1 invalid).2 filled

/-- Counting a segment that was just stored moves its size and the time of its update alone, and answers the
segment as it is then unless some call fails. -/
theorem recount_adopted {m : Memory} {s : Segment} (stored : w.state = m.adopt s)
    (ends : Ends failing (recount s.id s.rules) w o w') :
    ∃ t, w'.state = m.adopt t ∧ t = { s with audienceSize := t.audienceSize, updatedAt := t.updatedAt } ∧
      (failing ≠ [] ∨ o = .ok t ∧ w.readings < w'.readings ∧
        t.audienceSize = Audience.storedSize (m.audience s.rules (w.clock w.readings))) := by
  have live : w.state.segments.get? s.id = some s := by rw [stored, Memory.get?_adopt]
  rcases recount_cases ends with ⟨idle, failed | gone, _⟩ | ⟨now, _, _, passed, state, outcome⟩
  · exact ⟨s, idle.state.trans stored, rfl, .inl failed⟩
  · rw [live] at gone
    cases gone
  · rw [stored, Memory.resize_adopt] at state
    refine ⟨_, state, rfl, ?_⟩
    rcases outcome with failed | ⟨t, rfl, read⟩
    · exact .inl failed
    · rw [state] at read
      cases Memory.get?_adopt.symm.trans read
      exact .inr ⟨rfl, passed, rfl⟩

theorem create_fulfilled (filled : Text.trim request.name ≠ "")
    (free : w.state.names.get? (Text.trim request.name) = none)
    (ends : Ends [] (create request createdBy) w o w') : ∃ s, o = .ok s ∧ request.Fulfilled createdBy w s w' := by
  rcases create_of_free filled free ends with ⟨blocked, _⟩ | ⟨_, s, mid, described, _, follows, stored, ends⟩
  · simp at blocked
  · obtain ⟨t, state, kept, failed | ⟨rfl, passed, size⟩⟩ := recount_adopted stored ends
    · exact absurd rfl failed
    · refine ⟨t, rfl, described.kept kept, ⟨mid.readings, follows.readings, passed, ?_⟩, state⟩
      rw [size, follows.clock, described.rules]

variable {left last : World Memory} {o' : Except Error Segment} {s : Segment}

/-- A second request for a segment is accepted if the first one could not store it, and refused otherwise. -/
theorem create_again (once : Ends [] (create request createdBy) w (.ok s) w')
    (first : Ends failing (create request createdBy) w o left) (again : Ends [] (create request createdBy) left o' last) :
    request.Fulfilled createdBy w s w' ∧
      if .findSegmentByName ∈ failing ∨ .insertSegment ∈ failing then
        left.state = w.state ∧ ∃ s', o' = .ok s' ∧ request.Fulfilled createdBy left s' last
      else
        (∃ s', request.Describes createdBy s' ∧ left.state = w.state.adopt s') ∧
          o' = .error (.duplicateName (Text.trim request.name)) ∧ last.state = left.state := by
  rcases create_cases once with ⟨_, _, ⟨e, absent⟩, _⟩ | ⟨filled, free, _⟩
  · cases absent
  obtain ⟨t, same, fulfilled⟩ := create_fulfilled filled free once
  cases same
  refine ⟨fulfilled, ?_⟩
  rcases create_of_free filled free first with
    ⟨blocked, state⟩ | ⟨works, s', mid, described, _, _, stored, ends⟩
  · rw [if_pos blocked]
    exact ⟨state, create_fulfilled filled (state ▸ free) again⟩
  · rw [if_neg (not_or.2 works)]
    obtain ⟨t, state, kept, _⟩ := recount_adopted stored ends
    have asked : request.Describes createdBy t := described.kept kept
    have taken : (left.state.names.get? (Text.trim request.name)).bind left.state.segments.get? = some t := by
      rw [state, ← asked.name, Memory.adopt, Table.get?_insert, if_pos rfl]
      exact Memory.get?_adopt
    exact ⟨⟨t, asked, state⟩, create_of_taken filled taken again⟩

/-- A second deletion of a segment is accepted if the first one could not erase it, and refused otherwise. -/
theorem delete_again {id : Uuid} {n : Nat} {fault : StoreFault} {o' : Except Error Nat}
    (once : Ends [] (delete id) w (.ok n) w') (first : Ends failing (delete id) w (.error (.store fault)) left)
    (again : Ends [] (delete id) left o' last) :
    ∃ s now, w.state.segments.get? id = some s ∧ w'.state = w.state.dismiss s id now ∧
      if .deleteSegment ∈ failing then
        left.state = w.state ∧ o' = .ok n ∧ ∃ later, last.state = w.state.dismiss s id later
      else
        left.state = { w.state with segments := w.state.segments.erase id, names := w.state.names.erase s.name } ∧
          o' = .error (.missing .segment id) ∧ last.state = left.state := by
  rcases delete_cases once with
    ⟨_, ⟨absent, _⟩ | ⟨absent, _⟩⟩ | ⟨s, now, live, _, _, _, ⟨absent, _⟩ | ⟨same, state⟩⟩
  · cases absent
  · cases absent
  · cases absent
  cases same
  refine ⟨s, now, live, state, ?_⟩
  rcases delete_cases first with ⟨idle, ⟨_, fails⟩ | ⟨absent, _⟩⟩ |
    ⟨t, _, live', works, _, _, ⟨_, _, state'⟩ | ⟨absent, _⟩⟩
  · rw [if_pos fails]
    rcases delete_cases again with
      ⟨_, ⟨_, absent⟩ | ⟨_, gone⟩⟩ | ⟨t, later, live', _, _, _, ⟨_, absent, _⟩ | ⟨counted, state'⟩⟩
    · cases absent
    · rw [idle.state, live] at gone
      cases gone
    · cases absent
    · rw [idle.state] at live' counted state'
      cases live.symm.trans live'
      exact ⟨idle.state, counted, later, state'⟩
  · cases absent
  · cases live.symm.trans live'
    rw [if_neg works]
    refine ⟨state', ?_⟩
    have gone : left.state.segments.get? id = none := by rw [state', Table.get?_erase, if_pos rfl]
    rcases delete_cases again with ⟨idle, ⟨_, absent⟩ | ⟨refused, _⟩⟩ | ⟨t, later, live', _⟩
    · cases absent
    · exact ⟨refused, idle.state⟩
    · rw [gone] at live'
      cases live'
  · cases absent

end Segments

namespace Service

open Store

/-- Trying again after an error of the store. A request to create or to delete a segment that would be accepted if
every call were answered ends in such an error. If its first write was not made, nothing changed, and the next try
is accepted and leaves what the first one would have left, up to identifiers and times. If it was made, it stays:
a created segment keeps its name and the next try is refused as a duplicate; a deleted one is missing to the next
try, which leaves its memberships with their holders. -/
theorem tries_after_store_error (failing : List Method) (fault : StoreFault) (w : World Memory) :
    (∀ request createdBy s,
      let r := Request.createSegment request createdBy
      let left := (serve failing r w).2
      (serve [] r w).1 = .ok s → (serve failing r w).1 = .error (.store fault) →
        request.Fulfilled createdBy w s (serve [] r w).2 ∧
          if .findSegmentByName ∈ failing ∨ .insertSegment ∈ failing then
            left.state = w.state ∧ ∃ s', (serve [] r left).1 = .ok s' ∧
              request.Fulfilled createdBy left s' (serve [] r left).2 ∧
              s' = { s with id := s'.id, audienceSize := s'.audienceSize, createdAt := s'.createdAt
                            updatedAt := s'.updatedAt }
          else
            (∃ s', request.Describes createdBy s' ∧ left.state = w.state.adopt s') ∧
              (serve [] r left).1 = .error (.duplicateName s.name) ∧ (serve [] r left).2.state = left.state) ∧
      ∀ id n,
        let r := Request.deleteSegment id
        let left := (serve failing r w).2
        (serve [] r w).1 = .ok n → (serve failing r w).1 = .error (.store fault) →
          ∃ s now, w.state.segments.get? id = some s ∧ (serve [] r w).2.state = w.state.dismiss s id now ∧
            if .deleteSegment ∈ failing then
              left.state = w.state ∧ (serve [] r left).1 = .ok n ∧
                (∃ later, (serve [] r left).2.state = w.state.dismiss s id later) ∧
                ∀ c ∈ (serve [] r left).2.state.customers.values, id ∉ c.segments
            else
              left.state = { w.state with segments := w.state.segments.erase id, names := w.state.names.erase s.name } ∧
                (serve [] r left).1 = .error (.missing .segment id) ∧ (serve [] r left).2.state = left.state := by
  constructor
  · intro request createdBy s r left once _
    have whole : Ends [] (Segments.create request createdBy) w (.ok s) (serve [] r w).2 := Prod.ext once rfl
    have first : Ends failing (Segments.create request createdBy) w (serve failing r w).1 left := Ends.serve failing r w
    have again : Ends [] (Segments.create request createdBy) left (serve [] r left).1 (serve [] r left).2 :=
      Ends.serve [] r left
    obtain ⟨fulfilled, outcome⟩ := Segments.create_again whole first again
    refine ⟨fulfilled, ?_⟩
    by_cases blocked : Method.findSegmentByName ∈ failing ∨ Method.insertSegment ∈ failing
    · rw [if_pos blocked] at outcome ⊢
      obtain ⟨state, s', accepted, fulfilled'⟩ := outcome
      exact ⟨state, s', accepted, fulfilled', fulfilled.described.unique fulfilled'.described⟩
    · rw [if_neg blocked] at outcome ⊢
      rw [fulfilled.described.name]
      exact outcome
  · intro id n r left once failed
    have whole : Ends [] (Segments.delete id) w (.ok n) (serve [] r w).2 := Prod.ext once rfl
    have first : Ends failing (Segments.delete id) w (.error (.store fault)) left := Prod.ext failed rfl
    have again : Ends [] (Segments.delete id) left (serve [] r left).1 (serve [] r left).2 := Ends.serve [] r left
    obtain ⟨s, now, live, state, outcome⟩ := Segments.delete_again whole first again
    refine ⟨s, now, live, state, ?_⟩
    by_cases blocked : Method.deleteSegment ∈ failing
    · rw [if_pos blocked] at outcome ⊢
      obtain ⟨same, counted, later, state'⟩ := outcome
      refine ⟨same, counted, ⟨later, state'⟩, ?_⟩
      rw [show (serve [] r left).2.state = w.state.dismiss s id later from state']
      exact fun c kept => Memory.not_mem_of_dismiss kept
    · rw [if_neg blocked] at outcome ⊢
      exact outcome

/-- The deletion that breaks off before anything is erased can be made up for, and so can the creation that breaks
off before anything is stored. -/
theorem tries_after_store_error_unwritten :
    let vip : NewSegment := ⟨"VIP", none, [], true⟩
    let steps : List Step := [⟨[], .createSegment vip "ops"⟩,
      ⟨[], .createCustomer ⟨{ Profile.named "Ada" with segments := .ofList [Uuid.counting 0] }, none⟩⟩]
    let w := serveAll steps (.start .empty (fun _ => .epoch) Uuid.counting)
    (∃ s, (serve [] (.createSegment ⟨"New", none, [], true⟩ "ops")
      (serve [.insertSegment] (.createSegment ⟨"New", none, [], true⟩ "ops") w).2).1 = .ok s) ∧
      (serve [] (.deleteSegment (Uuid.counting 0))
        (serve [.deleteSegment] (.deleteSegment (Uuid.counting 0)) w).2).1 = .ok 1 := by
  intro vip steps w
  have created : (serve [] (.createSegment ⟨"New", none, [], true⟩ "ops") w).1 =
      .ok (NewSegment.segment ⟨"New", none, [], true⟩ (Uuid.counting 2) "New" .epoch "ops") := by decide +kernel
  have deleted : (serve [] (.deleteSegment (Uuid.counting 0)) w).1 = .ok 1 := by decide +kernel
  constructor
  · have failed : (serve [.insertSegment] (.createSegment ⟨"New", none, [], true⟩ "ops") w).1 =
        .error (.store .unavailable) := by decide +kernel
    obtain ⟨_, outcome⟩ := (tries_after_store_error [.insertSegment] .unavailable w).1 _ _ _ created failed
    rw [if_pos (by decide)] at outcome
    obtain ⟨_, s', accepted, _⟩ := outcome
    exact ⟨s', accepted⟩
  · have failed : (serve [.deleteSegment] (.deleteSegment (Uuid.counting 0)) w).1 = .error (.store .unavailable) := by
      decide +kernel
    obtain ⟨_, _, _, _, outcome⟩ := (tries_after_store_error [.deleteSegment] .unavailable w).2 _ _ deleted failed
    rw [if_pos (by decide)] at outcome
    exact outcome.2.1

/-- A deletion that breaks off between its two writes cannot be made up for: the next try misses the segment, and
its holder keeps it. Nor can a creation that breaks off after the segment took its name. -/
theorem half_done_requests_stay :
    let vip : NewSegment := ⟨"VIP", none, [], true⟩
    let steps : List Step := [⟨[], .createSegment vip "ops"⟩,
      ⟨[], .createCustomer ⟨{ Profile.named "Ada" with segments := .ofList [Uuid.counting 0] }, none⟩⟩]
    let w := serveAll steps (.start .empty (fun _ => .epoch) Uuid.counting)
    let deletion := Request.deleteSegment (Uuid.counting 0)
    let creation := Request.createSegment ⟨"New", none, [], true⟩ "ops"
    let erased := serve [.removeSegmentFromAll] deletion w
    let stored := serve [.setAudienceSize] creation w
    ((serve [] deletion w).1 = .ok 1 ∧ erased.1 = .error (.store .unavailable) ∧
        (serve [] deletion erased.2).1 = .error (.missing .segment (Uuid.counting 0)) ∧
        ∃ c ∈ (serve [] deletion erased.2).2.state.customers.values, Uuid.counting 0 ∈ c.segments) ∧
      (serve [] creation w).1.isOk = true ∧ stored.1 = .error (.store .unavailable) ∧
        (serve [] creation stored.2).1 = .error (.duplicateName "New") := by
  decide +kernel

end Service

end CustomerSegments
