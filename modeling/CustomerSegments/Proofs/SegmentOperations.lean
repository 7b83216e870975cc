import CustomerSegments.Proofs.AudienceTasks

namespace CustomerSegments

/-- The segment that a client asks for. -/
def NewSegment.segment (request : NewSegment) (id : Uuid) (name : String) (now : Instant) (createdBy : String) :
    Segment :=
  { id, name, description := request.description, rules := request.rules, audienceSize := 0
    isActive := request.isActive, createdAt := now, updatedAt := now, createdBy }

namespace Segments

open Store Service

variable {failing : List Method} {w w' : World Memory} {id : Uuid} {o : Except Error Segment}

theorem get_cases (ends : Ends failing (get id) w o w') :
    w.Idles w' ∧
      ((o = .error (.store .unavailable) ∧ Method.getSegment ∈ failing) ∨
        (o = .error (.missing .segment id) ∧ w.state.segments.get? id = none) ∨
          ∃ s, o = .ok s ∧ w.state.segments.get? id = some s) := by
  unfold get at ends
  rcases Ends.call_bind_iff.1 ends with ⟨fails, rfl, rfl⟩ | ⟨_, ⟨found, answered, ends⟩ | ⟨e, answered, _, _⟩⟩
  · exact ⟨.refl w', .inl ⟨rfl, fails⟩⟩
  · cases answered
    cases live : w.state.segments.get? id with
    | none =>
      simp only [live] at ends
      obtain ⟨rfl, rfl⟩ := Ends.throw_iff.1 ends
      exact ⟨w.idles_next, .inr (.inl ⟨rfl, rfl⟩)⟩
    | some s =>
      simp only [live] at ends
      obtain ⟨rfl, rfl⟩ := Ends.pure_iff.1 ends
      exact ⟨w.idles_next, .inr (.inr ⟨s, rfl, rfl⟩)⟩
  · cases answered

/-- Counts the audience of a stored segment and reads it again. -/
def recount (id : Uuid) (rules : List Rule) : Operation Segment := do
  let _ ← Audience.recompute id rules
  get id

/-- A recount that gets through to the store succeeds unless reading the segment again fails. -/
theorem recount_cases {rules : List Rule} (ends : Ends failing (recount id rules) w o w') :
    (w.Idles w' ∧ (failing ≠ [] ∨ w.state.segments.get? id = none) ∧ ∃ e, o = .error e) ∨
      ∃ now, w.Follows w' ∧ w'.issued = w.issued ∧ w.readings < w'.readings ∧
        w'.state = w.state.resize id (Audience.storedSize (w.state.audience rules (w.clock w.readings))) now ∧
        (failing ≠ [] ∨ ∃ s, o = .ok s ∧ w'.state.segments.get? id = some s) := by
  unfold recount at ends
  rcases Ends.bind_iff.1 ends with ⟨size, mid, first, ends⟩ | ⟨e, first, rfl⟩
  · rcases Audience.recompute_cases first with ⟨_, ⟨absent, _⟩ | ⟨absent, _⟩⟩ |
      ⟨s, now, live, _, follows, issued, passed, state⟩
    · cases absent
    · cases absent
    · obtain ⟨idle, outcome⟩ := get_cases ends
      refine .inr ⟨now, follows.trans idle.follows, idle.issued.trans issued,
        Nat.lt_of_lt_of_le passed idle.follows.readings, idle.state.trans state, ?_⟩
      rcases outcome with ⟨_, fails⟩ | ⟨_, gone⟩ | ⟨s', rfl, live'⟩
      · exact .inl (List.ne_nil_of_mem fails)
      · rw [state, Memory.resize, Memory.get?_revise, live] at gone
        cases gone
      · exact .inr ⟨s', rfl, idle.state ▸ live'⟩
  · rcases Audience.recompute_cases first with ⟨idle, ⟨_, fails⟩ | ⟨_, gone⟩⟩ | ⟨_, _, _, absent, _⟩
    · exact .inl ⟨idle, .inl fails, e, rfl⟩
    · exact .inl ⟨idle, .inr gone, e, rfl⟩
    · cases absent

/-- Stores a new segment and counts its audience. -/
def store (s : Segment) : Operation Segment := do
  call (.insertSegment s)
  recount s.id s.rules

theorem store_cases {s : Segment} (ends : Ends failing (store s) w o w') :
    (w.Follows w' ∧ w'.state = w.state ∧ (∃ e, o = .error e) ∧
        (failing ≠ [] ∨ (w.state.names.get? s.name).isSome)) ∨
      w.state.names.get? s.name = none ∧
        Ends failing (recount s.id s.rules)
          (w.next { w.state with names := w.state.names.insert s.name s.id
                                 segments := w.state.segments.insert s.id s }) o w' := by
  unfold store at ends
  cases owner : w.state.names.get? s.name with
  | none =>
    have answered := Memory.answer_insertSegment_of_free owner (w.clock w.readings)
    rcases Ends.call_bind_iff.1 ends with ⟨fails, rfl, rfl⟩ | ⟨_, ⟨_, stored, ends⟩ | ⟨e, refused, rfl, rfl⟩⟩
    · exact .inl ⟨.refl w', rfl, ⟨_, rfl⟩, .inl (List.ne_nil_of_mem fails)⟩
    · rw [answered] at ends
      exact .inr ⟨rfl, ends⟩
    · rw [answered] at refused
      cases refused
  | some id =>
    have answered := Memory.answer_insertSegment_of_taken owner (w.clock w.readings)
    rcases Ends.call_bind_iff.1 ends with ⟨fails, rfl, rfl⟩ | ⟨_, ⟨_, stored, ends⟩ | ⟨e, refused, rfl, rfl⟩⟩
    · exact .inl ⟨.refl w', rfl, ⟨_, rfl⟩, .inl (List.ne_nil_of_mem fails)⟩
    · rw [answered] at stored
      cases stored
    · rw [answered]
      exact .inl ⟨w.follows_next _, rfl, ⟨_, rfl⟩, .inr rfl⟩

/-- A new segment is refused without a trace in the store, or stored and then counted. -/
theorem create_cases {request : NewSegment} {createdBy : String}
    (ends : Ends failing (create request createdBy) w o w') :
    (w.Follows w' ∧ w'.state = w.state ∧ (∃ e, o = .error e) ∧
        (failing ≠ [] ∨ Text.trim request.name = "" ∨ (w.state.names.get? (Text.trim request.name)).isSome)) ∨
      Text.trim request.name ≠ "" ∧ w.state.names.get? (Text.trim request.name) = none ∧
        ∃ s now mid, s = request.segment (w.supply w.issued.length) (Text.trim request.name) now createdBy ∧
          w.Follows mid ∧ mid.issued = (.segment, s.id) :: w.issued ∧
          mid.state = { w.state with names := w.state.names.insert s.name s.id
                                     segments := w.state.segments.insert s.id s } ∧
          Ends failing (recount s.id s.rules) mid o w' := by
  unfold create at ends
  rcases Ends.settled_bind_iff.1 ends with ⟨name, valid, ends⟩ | ⟨e, invalid, rfl, rfl⟩
  · obtain ⟨rfl, filled⟩ := validName_eq_ok_iff.1 valid
    generalize Text.trim request.name = name at ends filled ⊢
    rcases Ends.call_bind_iff.1 ends with ⟨fails, rfl, rfl⟩ | ⟨_, ⟨found, answered, ends⟩ | ⟨e, answered, _, _⟩⟩
    · exact .inl ⟨.refl w', rfl, ⟨_, rfl⟩, .inl (List.ne_nil_of_mem fails)⟩
    · cases answered
      by_cases taken : (w.state.names.get? name).bind w.state.segments.get? = none
      · simp only [taken, Option.isSome_none, Bool.false_eq_true, if_false] at ends
        have ends := Ends.freshId_bind_iff.1 (Ends.now_bind_iff.1 ends)
        let s := request.segment (w.supply w.issued.length) name (w.clock (w.readings + 1)) createdBy
        let before := (w.next w.state).tick.issue .segment
        have ends : Ends failing (store s) before o w' := ends
        have follows : w.Follows before :=
          (w.follows_next _).trans ((World.idles_tick _).follows.trans (World.follows_issue _ _))
        rcases store_cases ends with ⟨after, state, failed, fails | owned⟩ | ⟨free, ends⟩
        · exact .inl ⟨follows.trans after, state, failed, .inl fails⟩
        · exact .inl ⟨follows.trans after, state, failed, .inr (.inr owned)⟩
        · exact .inr ⟨filled, free, s, _, _, rfl, follows.trans (World.follows_next _ _), rfl, rfl, ends⟩
      · obtain ⟨s, known⟩ := Option.ne_none_iff_exists'.1 taken
        simp only [known, Option.isSome_some, if_true] at ends
        obtain ⟨rfl, rfl⟩ := Ends.throw_bind_iff.1 ends
        obtain ⟨owner, owned, _⟩ := Option.bind_eq_some_iff.1 known
        refine .inl ⟨w.follows_next _, rfl, ⟨_, rfl⟩, .inr (.inr ?_)⟩
        rw [owned, Option.isSome_some]
    · cases answered
  · exact .inl ⟨.refl w', rfl, ⟨e, rfl⟩, .inr (.inl (validName_eq_error_iff.1 invalid).2)⟩

/-- A requested name is refused if it is blank or leads to a segment of another id. -/
theorem newName_cases {s : Segment} {requested : Option String} {o : Except Error String}
    (ends : Ends failing (newName id s requested) w o w') :
    w.Idles w' ∧
      (((∃ e, o = .error e) ∧
          (failing ≠ [] ∨ ∃ raw, requested = some raw ∧
            (Text.trim raw = "" ∨ ∃ other, (w.state.names.get? (Text.trim raw)).bind w.state.segments.get? = some other ∧
              other.id ≠ id))) ∨
        o = .ok ((requested.map Text.trim).getD s.name) ∧ ∀ raw, requested = some raw → Text.trim raw ≠ "") := by
  unfold newName at ends
  cases requested with
  | none =>
    obtain ⟨rfl, rfl⟩ := Ends.pure_iff.1 ends
    exact ⟨.refl w', .inr ⟨rfl, nofun⟩⟩
  | some raw =>
    rcases Ends.settled_bind_iff.1 ends with ⟨name, valid, ends⟩ | ⟨e, invalid, rfl, rfl⟩
    · obtain ⟨rfl, filled⟩ := validName_eq_ok_iff.1 valid
      have accepted (raw' : String) (same : some raw = some raw') : Text.trim raw' ≠ "" := by
        cases same
        exact filled
      by_cases kept : Text.trim raw = s.name
      · simp only [kept, ne_eq, not_true_eq_false, if_false] at ends
        obtain ⟨rfl, rfl⟩ := Ends.pure_iff.1 ends
        exact ⟨.refl w', .inr ⟨by simp only [Option.map_some, Option.getD_some, kept], accepted⟩⟩
      · simp only [ne_eq, kept, not_false_eq_true, if_true] at ends
        rcases Ends.call_bind_iff.1 ends with ⟨fails, rfl, rfl⟩ | ⟨_, ⟨found, answered, ends⟩ | ⟨e, answered, _, _⟩⟩
        · exact ⟨.refl w', .inl ⟨⟨_, rfl⟩, .inl (List.ne_nil_of_mem fails)⟩⟩
        · cases answered
          cases known : (w.state.names.get? (Text.trim raw)).bind w.state.segments.get? with
          | none =>
            simp only [known] at ends
            obtain ⟨rfl, rfl⟩ := Ends.pure_iff.1 ends
            exact ⟨w.idles_next, .inr ⟨rfl, accepted⟩⟩
          | some other =>
            by_cases own : other.id = id
            · simp only [known, own, not_true_eq_false, if_false] at ends
              obtain ⟨rfl, rfl⟩ := Ends.pure_iff.1 ends
              exact ⟨w.idles_next, .inr ⟨rfl, accepted⟩⟩
            · simp only [known, own, not_false_eq_true, if_true] at ends
              obtain ⟨rfl, rfl⟩ := Ends.throw_bind_iff.1 ends
              exact ⟨w.idles_next, .inl ⟨⟨_, rfl⟩, .inr ⟨raw, rfl, .inr ⟨other, known, own⟩⟩⟩⟩
        · cases answered
    · exact ⟨.refl w', .inl ⟨⟨e, rfl⟩, .inr ⟨raw, rfl, .inl (validName_eq_error_iff.1 invalid).2⟩⟩⟩

/-- Replaces a stored segment, then counts it again or just reads it. -/
def replace (id : Uuid) (s : Segment) (counts : Bool) : Operation Segment := do
  call (.updateSegment s)
  if counts then recount id s.rules else get id

theorem replace_cases {s old : Segment} {counts : Bool} (live : w.state.segments.get? s.id = some old)
    (ends : Ends failing (replace id s counts) w o w') :
    (w.Idles w' ∧ (∃ e, o = .error e) ∧
        (failing ≠ [] ∨ Memory.renamed? s.id old.name s.name w.state.names = none)) ∨
      ∃ names, Memory.renamed? s.id old.name s.name w.state.names = some names ∧
        Ends failing (if counts then recount id s.rules else get id)
          (w.next { w.state with names := names
                                 segments := w.state.segments.insert s.id { s with audienceSize := old.audienceSize } })
          o w' := by
  unfold replace at ends
  cases moved : Memory.renamed? s.id old.name s.name w.state.names with
  | none =>
    have answered := Memory.answer_updateSegment_of_taken live moved (w.clock w.readings)
    rcases Ends.call_bind_iff.1 ends with ⟨fails, rfl, rfl⟩ | ⟨_, ⟨_, stored, ends⟩ | ⟨e, refused, rfl, rfl⟩⟩
    · exact .inl ⟨.refl w', ⟨_, rfl⟩, .inl (List.ne_nil_of_mem fails)⟩
    · rw [answered] at stored
      cases stored
    · rw [answered]
      exact .inl ⟨w.idles_next, ⟨_, rfl⟩, .inr rfl⟩
  | some names =>
    have answered := Memory.answer_updateSegment_of_free live moved (w.clock w.readings)
    rcases Ends.call_bind_iff.1 ends with ⟨fails, rfl, rfl⟩ | ⟨_, ⟨_, stored, ends⟩ | ⟨e, refused, rfl, rfl⟩⟩
    · exact .inl ⟨.refl w', ⟨_, rfl⟩, .inl (List.ne_nil_of_mem fails)⟩
    · rw [answered] at ends
      exact .inr ⟨names, rfl, ends⟩
    · rw [answered] at refused
      cases refused

/-- The segment that a patch and a name make of a stored one. -/
def revised (old : Segment) (patch : SegmentPatch) (name : String) (now : Instant) : Segment :=
  { patch.apply old with name := name, updatedAt := now }

/-- An update is refused without a trace in the store, or the segment is replaced and, if the patch has
rules, counted. -/
theorem update_cases {patch : SegmentPatch}
    (own : ∀ id s, w.state.segments.get? id = some s → s.id = id)
    (ends : Ends failing (update id patch) w o w') :
    (w.Idles w' ∧ (∃ e, o = .error e) ∧
        (failing ≠ [] ∨ w.state.segments.get? id = none ∨ ∃ raw, patch.name = some raw ∧
          (Text.trim raw = "" ∨ ∃ owner, w.state.names.get? (Text.trim raw) = some owner ∧ owner ≠ id))) ∨
      ∃ s s' now names mid, w.state.segments.get? id = some s ∧
        s' = { patch.apply s with name := (patch.name.map Text.trim).getD s.name, updatedAt := now } ∧
        (∀ raw, patch.name = some raw → Text.trim raw ≠ "") ∧
        Memory.renamed? id s.name s'.name w.state.names = some names ∧
        w.Follows mid ∧ mid.issued = w.issued ∧
        mid.state = { w.state with names := names, segments := w.state.segments.insert id s' } ∧
        Ends failing (if patch.rules.isSome then recount id s'.rules else get id) mid o w' := by
  unfold update at ends
  rcases Ends.bind_iff.1 ends with ⟨s, found, first, ends⟩ | ⟨e, first, rfl⟩
  · obtain ⟨idle, ⟨absent, _⟩ | ⟨absent, _⟩ | ⟨s', same, live⟩⟩ := get_cases first
    · cases absent
    · cases absent
    cases same
    obtain rfl := own id s live
    rcases Ends.bind_iff.1 ends with ⟨name, named, second, ends⟩ | ⟨e, second, rfl⟩
    · obtain ⟨idle', ⟨⟨_, absent⟩, _⟩ | ⟨same, filled⟩⟩ := newName_cases second
      · cases absent
      · cases same
        generalize chosen : (patch.name.map Text.trim).getD s.name = name at ends
        have ends := Ends.now_bind_iff.1 ends
        let s' : Segment := { patch.apply s with name := name, updatedAt := named.clock named.readings }
        have ends : Ends failing (replace s.id s' patch.rules.isSome) named.tick o w' := by
          unfold replace recount
          cases counts : patch.rules.isSome
          · simpa only [counts] using ends
          · simpa only [counts] using ends
        have before : w.Idles named.tick := idle.trans (idle'.trans named.idles_tick)
        have stored : named.tick.state.segments.get? s'.id = some s := by
          rw [before.state]
          exact live
        rcases replace_cases stored ends with ⟨after, failed, fails | taken⟩ | ⟨names, moved, ends⟩
        · exact .inl ⟨before.trans after, failed, .inl fails⟩
        · refine .inl ⟨before.trans after, failed, .inr (.inr ?_)⟩
          obtain ⟨changed, owner, owned, other⟩ := Memory.renamed?_eq_none_iff.1 taken
          rw [before.state] at owned
          cases requested : patch.name with
          | none =>
            rw [requested] at chosen
            exact absurd chosen changed
          | some raw =>
            rw [requested] at chosen
            refine ⟨raw, rfl, .inr ⟨owner, ?_, other⟩⟩
            rw [show Text.trim raw = s'.name from chosen]
            exact owned
        · rw [before.state] at moved ends
          have follows (state : Memory) : w.Follows (named.tick.next state) :=
            before.follows.trans (World.follows_next _ _)
          refine .inr ⟨s, s', named.clock named.readings, names, _, live, ?_, filled, moved, follows _, before.issued, rfl, ends⟩
          rw [chosen]
    · obtain ⟨idle', ⟨_, fails | ⟨raw, requested, blank | ⟨other, known, other_ne⟩⟩⟩ | ⟨absent, _⟩⟩ :=
        newName_cases second
      · exact .inl ⟨idle.trans idle', ⟨e, rfl⟩, .inl fails⟩
      · exact .inl ⟨idle.trans idle', ⟨e, rfl⟩, .inr (.inr ⟨raw, requested, .inl blank⟩)⟩
      · rw [idle.state] at known
        obtain ⟨owner, owned, held⟩ := Option.bind_eq_some_iff.1 known
        refine .inl ⟨idle.trans idle', ⟨e, rfl⟩, .inr (.inr ⟨raw, requested, .inr ⟨owner, owned, ?_⟩⟩)⟩
        exact fun same => other_ne ((own owner other held).trans same)
      · cases absent
  · obtain ⟨idle, ⟨_, fails⟩ | ⟨_, gone⟩ | ⟨s', absent, _⟩⟩ := get_cases first
    · exact .inl ⟨idle, ⟨e, rfl⟩, .inl (List.ne_nil_of_mem fails)⟩
    · exact .inl ⟨idle, ⟨e, rfl⟩, .inr (.inl gone)⟩
    · cases absent

/-- A deletion changes nothing, or takes the segment away; if the customers that hold it can be reached,
it is taken from them too. -/
theorem delete_cases {o : Except Error Nat} (ends : Ends failing (delete id) w o w') :
    (w.Idles w' ∧ ((o = .error (.store .unavailable) ∧ Method.deleteSegment ∈ failing) ∨
        o = .error (.missing .segment id) ∧ w.state.segments.get? id = none)) ∨
      ∃ s now, w.state.segments.get? id = some s ∧ Method.deleteSegment ∉ failing ∧
        w.Follows w' ∧ w'.issued = w.issued ∧
        let remaining : Memory :=
          { w.state with segments := w.state.segments.erase id, names := w.state.names.erase s.name }
        ((o = .error (.store .unavailable) ∧ Method.removeSegmentFromAll ∈ failing ∧ w'.state = remaining) ∨
          o = .ok (w.state.customers.values.countP (id ∈ ·.segments)) ∧
            w'.state = { remaining with customers := w.state.customers.map (Customer.strip id now) }) := by
  unfold delete at ends
  rcases Ends.call_bind_iff.1 ends with ⟨fails, rfl, rfl⟩ | ⟨works, ⟨removed, answered, ends⟩ | ⟨e, answered, _, _⟩⟩
  · exact .inl ⟨.refl w', .inl ⟨rfl, fails⟩⟩
  · cases live : w.state.segments.get? id with
    | none =>
      rw [Memory.answer_deleteSegment_of_gone live] at answered ends
      cases answered
      obtain ⟨rfl, rfl⟩ := Ends.throw_iff.1 ends
      exact .inl ⟨w.idles_next, .inr ⟨rfl, rfl⟩⟩
    | some s =>
      rw [Memory.answer_deleteSegment_of_live live] at answered ends
      cases answered
      refine .inr ⟨s, w.clock (w.readings + 1), rfl, works, ?_⟩
      rcases Ends.call_iff.1 ends with ⟨fails, rfl, rfl⟩ | ⟨_, rfl, rfl⟩
      · exact ⟨w.follows_next _, rfl, .inl ⟨rfl, fails, rfl⟩⟩
      · exact ⟨(w.follows_next _).trans (World.follows_next _ _), rfl, .inr ⟨rfl, rfl⟩⟩
  · cases answered

end Segments

end CustomerSegments
