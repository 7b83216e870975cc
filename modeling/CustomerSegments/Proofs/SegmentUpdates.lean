import CustomerSegments.Proofs.CustomerUpdates

namespace CustomerSegments

namespace Memory

variable {m : Memory} {id : Uuid} {g : Segment}

theorem resize_of_live (live : m.segments.get? id = some g) (size : Int64) (now : Instant) :
    m.resize id size now =
      { m with segments := m.segments.insert id { g with audienceSize := size, updatedAt := now } } := by
  simp only [resize, revise, live]

end Memory

namespace Store.Host

open Memory Redis

variable {h : Host} {w w' : World h.State} {m : Memory} {id : Uuid} {old g : Segment} {patch : SegmentPatch}
  {rules : List Rule}

namespace Shows

/-- A definition is written over the one that is there, and the size of the segment stays. -/
theorem updateSegment_ends {names : Table String Uuid} (shows : h.Shows w.state m) (stores : h.Stores (.updateSegment g))
    (live : m.segments.get? g.id = some old) (moved : renamed? g.id old.name g.name m.names = some names) :
    ∃ s' readings, h.Ends (call (.updateSegment g)) w (.ok ()) { w with state := s', readings := readings } ∧
      h.Shows s' { m with names := names
                          segments := m.segments.insert g.id { g with audienceSize := old.audienceSize } } := by
  obtain ⟨o, s', readings, ends, represents, agree⟩ := call_ends shows.represents stores trivial
  rw [answer_updateSegment_of_free live moved] at represents agree
  obtain ⟨_, rfl, _⟩ := (agree trivial).exists_ok
  refine ⟨s', readings, ends, ⟨represents, fun w' other same => ?_⟩⟩
  cases h with
  | memory =>
    obtain rfl : s' = _ := represents
    exact (shows_memory _).segment w' other same
  | server l =>
    have left : (Server.run (l.realize (call (.updateSegment g)).run) w).2.state = s' :=
      congrArg (fun ended => ended.2.state) ends
    by_cases own : g.id = other
    · subst own same
      obtain ⟨o, s', settles, -, recorded⟩ := updateSegment_any l g w.state
      obtain ⟨_, ends'⟩ := ends_server (c := .updateSegment g) (settles.run w rfl)
      obtain ⟨rfl, same⟩ := ends'.unique ends
      have stored := recorded rfl
      rw [show s' = w'.state from congrArg World.state same] at stored
      have live' : (m.segments.insert g.id { g with audienceSize := old.audienceSize }).get? g.id =
          some { g with audienceSize := old.audienceSize } := by rw [Table.get?_insert, if_pos rfl]
      have loads : Loads Segment.decoder w'.state (l.segmentKey g.id.text) (some g) :=
        ⟨g.text, stored, Segment.decodeText_text stores⟩
      have shown : Settles (l.getSegment g.id) w'.state (.ok (some { g with audienceSize := old.audienceSize })) w'.state :=
        (fetch_settles loads).bind ((represents.segments.audienceSize live').bind (.pure _))
      rw [live']
      exact answer_server (c := .getSegment g.id) shown
    · have only : (call (.updateSegment g)).run.AsksOnly (Effect.Within fun call => call = .updateSegment g) :=
        Program.asksOnly_request rfl
      have record : s'.get? (l.key (.segment other)) = w.state.get? (l.key (.segment other)) := by
        rw [← left]
        refine Server.run_realize_keeps only ?_ w
        rintro call rfl slot touches same
        rw [← Layout.key_injective same] at touches
        rcases touches with same | same <;> cases same
        exact own rfl
      refine answer_of_kept Segment.audienceSize shows represents record ?_ w' same
      rw [Table.get?_insert, if_neg own]
      exact (Option.map_id_fun' ▸ rfl)

/-- A size is written. A server leaves the time of the last update alone. -/
theorem setAudienceSize_ends (shows : h.Shows w.state m) (live : m.segments.get? id = some g) (size : Int64) :
    ∃ s' readings t, h.Ends (call (.setAudienceSize id size)) w (.ok ()) { w with state := s', readings := readings } ∧
      h.Shows s' (m.resize id size t) ∧
      (t = g.updatedAt ∨ w.Reads { w with state := s', readings := readings } t) := by
  cases h with
  | memory =>
    obtain rfl : w.state = m := shows.represents
    have ends := ends_memory (.setAudienceSize id size) w
    rw [answer_setAudienceSize, live] at ends
    exact ⟨_, _, w.clock w.readings, ends, shows_memory _, .inr ⟨w.readings, Nat.le_refl _, Nat.lt_succ_self _, rfl⟩⟩
  | server l =>
    obtain ⟨s', settles, held, keeps⟩ :=
      shows.represents.segments.setAudienceSize_of_live live size g.updatedAt
    obtain ⟨readings, ends⟩ := ends_server (c := .setAudienceSize id size) (settles.run w rfl)
    have represents : Redis.Represents l s' (m.resize id size g.updatedAt) := by
      rw [resize_of_live live]
      exact shows.represents.withSegments held keeps (by simp [Slot.ofCustomers])
    refine ⟨s', readings, g.updatedAt, ends, ⟨represents, fun w' other same => ?_⟩, .inl rfl⟩
    refine answer_of_kept (fun g => if id = other then size else g.audienceSize) shows represents
      (keeps _ (by simp)) ?_ w' same
    by_cases own : id = other
    · subst own
      rw [resize, get?_revise, live, Option.map_some, Option.map_some, if_pos rfl, if_pos rfl]
    · simp only [resize, get?_revise, if_neg own]

theorem answer_audience (shows : h.Shows w.state m) (rules : List Rule) (now : Instant) :
    ∃ cs, h.customers w.state = .ok cs ∧ meant cs rules now = m.audience rules now := by
  obtain ⟨cs, listed, all⟩ := answer_listCustomers shows.represents
  exact ⟨cs, (answer_listCustomers_eq w).symm.trans listed, (all.countP_eq _).symm⟩

theorem getSegment_of_live (shows : h.Shows w.state m) (live : m.segments.get? id = some g) :
    ∃ readings, h.Ends (Segments.get id) w (.ok g) { w with readings := readings } := by
  obtain ⟨readings, looked⟩ := shows.getSegment_ends (w := w) id
  rw [live] at looked
  exact ⟨readings, looked.bind (Ends.pure_iff.2 ⟨rfl, rfl⟩)⟩

/-- The rules are counted at the time that is read first. -/
theorem recount_of_live (shows : h.Shows w.state m) (live : m.segments.get? id = some g) (rules : List Rule) :
    ∃ g' w', h.Ends (Segments.recount id rules) w (.ok g') w' ∧
      h.Shows w'.state { m with segments := m.segments.insert id g' } ∧
      g' = { g with audienceSize := g'.audienceSize, updatedAt := g'.updatedAt } ∧
      g'.audienceSize = Audience.storedSize (m.audience rules (w.clock w.readings)) ∧
      (g'.updatedAt = g.updatedAt ∨ w.Reads w' g'.updatedAt) ∧ w.tick.Follows w' := by
  obtain ⟨cs, known, size⟩ := shows.answer_audience rules (w.clock w.readings)
  obtain ⟨readings, tallies, counted⟩ := countRules_ends rules rfl known
  rw [size] at counted
  let mid : World h.State := { w with readings := readings, tallies := tallies }
  obtain ⟨s', later, t, written, shows', dated⟩ := Shows.setAudienceSize_ends (w := mid) shows live
    (Audience.storedSize (m.audience rules (w.clock w.readings)))
  rw [resize_of_live live] at shows'
  let new : Segment :=
    { g with audienceSize := Audience.storedSize (m.audience rules (w.clock w.readings)), updatedAt := t }
  have there : (m.segments.insert id new).get? id = some new := by rw [Table.get?_insert, if_pos rfl]
  let resized : World h.State := { mid with state := s', readings := later }
  let noted := resized.note .segmentsRecomputed 1
  have recomputed : h.Ends (Audience.recompute id rules) w
      (.ok (m.audience rules (w.clock w.readings))) noted := by
    refine counted.bind (written.bind (Ends.sure_bind_iff.2 ?_))
    rw [run_tally]
    exact Ends.pure_iff.2 ⟨rfl, rfl⟩
  obtain ⟨last, read⟩ := Shows.getSegment_of_live (w := noted) shows' there
  have first : w.tick.Follows mid := by
    unfold Audience.countRules at counted
    exact (Ends.now_bind_iff.1 counted).follows
  have rest : resized.Follows { noted with readings := last } :=
    (World.idles_note resized _ _).follows.trans read.follows
  refine ⟨new, _, recomputed.bind read, shows', rfl, rfl, dated.imp_right fun reads => ?_,
    first.trans (written.follows.trans rest)⟩
  exact reads.widen counted.follows rest

/-- A definition is written over a stored one, and its audience counted if this is asked for. -/
theorem replaceSegment_of_live {names : Table String Uuid} (shows : h.Shows w.state m)
    (stores : h.Stores (.updateSegment g)) (live : m.segments.get? g.id = some old)
    (moved : renamed? g.id old.name g.name m.names = some names) (counts : Bool) :
    ∃ new w', h.Ends (Segments.replace g.id g counts) w (.ok new) w' ∧
      h.Shows w'.state { m with names := names, segments := m.segments.insert g.id new } ∧
      new = { g with audienceSize := new.audienceSize, updatedAt := new.updatedAt } ∧
      (if counts then ∃ now, w.Reads w' now ∧ new.audienceSize = Audience.storedSize (m.audience g.rules now)
        else new.audienceSize = old.audienceSize) ∧
      (new.updatedAt = g.updatedAt ∨ w.Reads w' new.updatedAt) := by
  obtain ⟨s', readings, written, shows'⟩ := shows.updateSegment_ends stores live moved
  let mid : World h.State := { w with state := s', readings := readings }
  have there : (m.segments.insert g.id { g with audienceSize := old.audienceSize }).get? g.id =
      some { g with audienceSize := old.audienceSize } := by rw [Table.get?_insert, if_pos rfl]
  cases counts with
  | false =>
    obtain ⟨last, read⟩ := Shows.getSegment_of_live (w := mid) shows' there
    exact ⟨_, _, written.bind read, shows', rfl, rfl, .inl rfl⟩
  | true =>
    obtain ⟨new, w', recounted, shows'', same, size, dated, follows⟩ :=
      Shows.recount_of_live (w := mid) shows' there g.rules
    rw [Table.insert_insert] at shows''
    refine ⟨new, w', written.bind recounted, shows'', same, ⟨_, ?_, size⟩, ?_⟩
    · exact mid.reads_tick.widen written.follows follows
    · exact dated.imp_right fun reads => reads.widen written.follows (.refl w')

/-- A name that is not accepted is refused to the definition. -/
theorem updateSegment_refused (shows : h.Shows w.state m) (stores : h.Stores (.updateSegment g))
    (live : m.segments.get? g.id = some old) (taken : renamed? g.id old.name g.name m.names = none) :
    ∃ e w', h.Ends (call (.updateSegment g)) w (.error e) w' := by
  obtain ⟨o, s', readings, ends, _, agree⟩ := call_ends shows.represents stores trivial
  have agree := agree trivial
  rw [answer_updateSegment_of_taken live taken] at agree
  cases o with
  | ok _ => exact agree.elim
  | error e => exact ⟨e, _, ends⟩

/-- A name that is accepted is the trimmed one, or the old one. -/
theorem newName_accepted {name : String} (shows : h.Shows w.state m)
    (ends : h.Ends (Segments.newName id old patch.name) w (.ok name) w') :
    name = patch.nameOf old ∧ (∀ raw, patch.name = some raw → Text.trim raw ≠ "") ∧
      ∃ readings, w' = { w with readings := readings } := by
  unfold Segments.newName at ends
  rw [SegmentPatch.nameOf]
  cases requested : patch.name with
  | none =>
    rw [requested] at ends
    obtain ⟨same, rfl⟩ := Ends.pure_iff.1 ends
    exact ⟨Except.ok.inj same, nofun, w'.readings, rfl⟩
  | some raw =>
    rw [requested] at ends
    obtain ⟨trimmed, mid, first, rest⟩ := Ends.of_ok_bind ends
    obtain ⟨valid, rfl⟩ := Ends.settled_iff.1 first
    obtain ⟨rfl, filled⟩ := validName_eq_ok_iff.1 valid.symm
    have accepted (raw' : String) (same : some raw = some raw') : Text.trim raw' ≠ "" := by
      cases same
      exact filled
    by_cases kept : Text.trim raw = old.name
    · simp only [kept, ne_eq, not_true_eq_false, if_false] at rest
      obtain ⟨same, rfl⟩ := Ends.pure_iff.1 rest
      exact ⟨(Except.ok.inj same).trans kept.symm, accepted, w'.readings, rfl⟩
    · simp only [ne_eq, kept, not_false_eq_true, if_true] at rest
      obtain ⟨found, looked, read, rest⟩ := Ends.of_ok_bind rest
      obtain ⟨readings, read'⟩ := shows.findSegmentByName_ends (Text.trim raw)
      obtain ⟨-, rfl⟩ := read.unique read'
      have same : name = Text.trim raw ∧ w' = { mid with readings := readings } := by
        cases found with
        | none =>
          obtain ⟨same, rfl⟩ := Ends.pure_iff.1 rest
          exact ⟨Except.ok.inj same, rfl⟩
        | some other =>
          dsimp only at rest
          split at rest
          · obtain ⟨_, _, thrown, _⟩ := Ends.of_ok_bind rest
            cases (Ends.throw_iff.1 thrown).1
          · obtain ⟨same, rfl⟩ := Ends.pure_iff.1 rest
            exact ⟨Except.ok.inj same, rfl⟩
      exact ⟨same.1, accepted, readings, same.2⟩

/-- A name that is asked for again needs no look-up. -/
theorem newName_of_kept (kept : patch.nameOf g = g.name) (filled : ∀ raw, patch.name = some raw → Text.trim raw ≠ "")
    (id : Uuid) (w : World h.State) : h.Ends (Segments.newName id g patch.name) w (.ok g.name) w := by
  unfold Segments.newName
  rw [SegmentPatch.nameOf] at kept
  cases requested : patch.name with
  | none => exact Ends.pure_iff.2 ⟨rfl, rfl⟩
  | some raw =>
    rw [requested] at kept
    have trimmed : Text.trim raw = g.name := kept
    refine (Ends.settled_iff.2 ⟨(validName_eq_ok_iff.2 ⟨rfl, filled raw requested⟩).symm, rfl⟩).bind ?_
    simp only [trimmed, ne_eq, not_true_eq_false, if_false]
    exact Ends.pure_iff.2 ⟨rfl, rfl⟩

/-- What an update of a segment comes to once its name is settled. -/
theorem updateSegment_of_named {names : Table String Uuid} (shows : h.Shows w.state m) (live : m.segments.get? id = some old)
    (own : old.id = id) (keeps : h.KeepsRequest (.updateSegment id patch))
    (moved : renamed? id old.name (patch.nameOf old) m.names = some names) :
    ∃ new w' now,
      h.Ends (Attempt.now >>= fun t => Segments.replace id (Segments.revised old patch (patch.nameOf old) t) patch.rules.isSome)
        w (.ok new) w' ∧
      h.Shows w'.state { m with names := names, segments := m.segments.insert id new } ∧ patch.Patches old new ∧
      w.Reads w' new.updatedAt ∧ w.Reads w' now ∧
      new.audienceSize = patch.rules.elim old.audienceSize fun rules => Audience.storedSize (m.audience rules now) := by
  subst own
  let g := Segments.revised old patch (patch.nameOf old) (w.clock w.readings)
  have stores : h.Stores (.updateSegment g) :=
    stores_revised_segment (keepsRules_of_represents shows.represents live) keeps _ _
  obtain ⟨new, w', replaced, shows', same, size, dated⟩ :=
    Shows.replaceSegment_of_live (w := w.tick) (g := g) shows stores live moved patch.rules.isSome
  have ends : h.Ends (Attempt.now >>= fun t =>
      Segments.replace old.id (Segments.revised old patch (patch.nameOf old) t) patch.rules.isSome) w (.ok new) w' :=
    Ends.now_bind_iff.2 replaced
  have patches := (patch.patches_revised old (w.clock w.readings)).resized same
  have started : w.Reads w' (w.clock w.readings) := w.reads_tick.widen (.refl w) replaced.follows
  have updated : w.Reads w' new.updatedAt := by
    rcases dated with first | later
    · exact first ▸ started
    · exact later.widen w.idles_tick.follows (.refl w')
  cases requested : patch.rules with
  | none =>
    rw [requested] at size
    exact ⟨new, w', _, requested ▸ ends, shows', patches, updated, started, size⟩
  | some rules =>
    rw [requested] at size
    obtain ⟨now, reads, size⟩ := size
    have compiled : g.rules = rules := (patch.patches_revised old _).rules.taken rules requested
    rw [compiled] at size
    exact ⟨new, w', now, requested ▸ ends, shows', patches, updated, reads.widen w.idles_tick.follows (.refl w'), size⟩

theorem updateSegment_eq (id : Uuid) (patch : SegmentPatch) :
    Segments.update id patch = (do
      let old ← Segments.get id
      let name ← Segments.newName id old patch.name
      let now ← Attempt.now
      Segments.replace id (Segments.revised old patch name now) patch.rules.isSome) := rfl

/-- An update that is accepted had a segment to start from and a name that this one can have. -/
theorem updateSegment_accepted {new : Segment} (shows : h.Shows w.state m)
    (keyed : ∀ {id g}, m.segments.get? id = some g → g.id = id) (keeps : h.KeepsRequest (.updateSegment id patch))
    (ends : h.Ends (Segments.update id patch) w (.ok new) w') :
    ∃ old names mid, m.segments.get? id = some old ∧ (∀ raw, patch.name = some raw → Text.trim raw ≠ "") ∧
      renamed? id old.name (patch.nameOf old) m.names = some names ∧ w.Follows mid ∧ mid.state = w.state ∧
      h.Ends (Attempt.now >>= fun t => Segments.replace id (Segments.revised old patch (patch.nameOf old) t) patch.rules.isSome)
        mid (.ok new) w' := by
  rw [updateSegment_eq] at ends
  obtain ⟨old, looked, first, ends⟩ := Ends.of_ok_bind ends
  have live : m.segments.get? id = some old ∧ looked.state = w.state := by
    obtain ⟨found, w₁, read, got⟩ := Ends.of_ok_bind first
    obtain ⟨readings, read'⟩ := shows.getSegment_ends id
    obtain ⟨same, rfl⟩ := read.unique read'
    cases same
    cases live : m.segments.get? id with
    | none =>
      rw [live] at got
      cases (Ends.throw_iff.1 got).1
    | some g =>
      rw [live] at got
      obtain ⟨same, rfl⟩ := Ends.pure_iff.1 got
      exact ⟨congrArg some (Except.ok.inj same).symm, rfl⟩
  obtain ⟨live, state⟩ := live
  obtain ⟨name, mid, second, ends⟩ := Ends.of_ok_bind ends
  have shows : h.Shows looked.state m := state ▸ shows
  obtain ⟨rfl, filled, readings, rfl⟩ := shows.newName_accepted second
  have follows := first.follows.trans second.follows
  cases moved : renamed? id old.name (patch.nameOf old) m.names with
  | some names => exact ⟨old, names, _, live, filled, moved, follows, state, ends⟩
  | none =>
    have own := keyed live
    subst own
    obtain ⟨_, written, ends, _⟩ := Ends.of_ok_bind (Ends.now_bind_iff.1 ends)
    obtain ⟨e, _, refused⟩ := Shows.updateSegment_refused (w := World.tick { looked with readings := readings }) shows
      (stores_revised_segment (keepsRules_of_represents shows.represents live) keeps _ _) live moved
    cases (ends.unique refused).1

/-- An update that keeps the name of a segment is accepted. -/
theorem updateSegment_of_kept (shows : h.Shows w.state m) (live : m.segments.get? id = some g) (own : g.id = id)
    (keeps : h.KeepsRequest (.updateSegment id patch)) (kept : patch.nameOf g = g.name)
    (filled : ∀ raw, patch.name = some raw → Text.trim raw ≠ "") :
    ∃ new w' now, h.Ends (Segments.update id patch) w (.ok new) w' ∧
      h.Shows w'.state { m with segments := m.segments.insert id new } ∧ patch.Patches g new ∧
      w.Reads w' new.updatedAt ∧ w.Reads w' now ∧
      new.audienceSize = patch.rules.elim g.audienceSize fun rules => Audience.storedSize (m.audience rules now) := by
  obtain ⟨readings, got⟩ := shows.getSegment_of_live (w := w) live
  let mid : World h.State := { w with readings := readings }
  have moved : renamed? id g.name (patch.nameOf g) m.names = some m.names := by rw [kept, renamed?, if_pos rfl]
  obtain ⟨new, w', now, ends, shows', patches, updated, counted, size⟩ :=
    Shows.updateSegment_of_named (w := mid) shows live own keeps moved
  rw [kept] at ends
  exact ⟨new, w', now, got.bind ((newName_of_kept kept filled id mid).bind ends), shows', patches,
    updated.widen got.follows (.refl w'), counted.widen got.follows (.refl w'), size⟩

end Shows

end Store.Host

end CustomerSegments
