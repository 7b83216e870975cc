import CustomerSegments.Proofs.ConcurrentWrites
import CustomerSegments.Proofs.RefusedReads
import CustomerSegments.Proofs.StoreRuns

namespace CustomerSegments

namespace Store.Call

/-- A call about segments, or a check of the connection. -/
def ofSegments : Call → Bool
  | insertSegment _ | getSegment _ | findSegmentByName _ | updateSegment _ | deleteSegment _ | listSegments => true
  | setAudienceSize _ _ | incrementAudienceSize _ _ | ping => true
  | insertCustomer _ | getCustomer _ | updateCustomer _ | deleteCustomer _ | listCustomers => false
  | countMatching _ | removeSegmentFromAll _ => false

/-- The segment that a call brings along. -/
def brought? : Call → Option Segment
  | insertSegment g | updateSegment g => some g
  | _ => none

/-- The identifier of a segment that is new with a call. -/
def inserted? : Call → Option Uuid
  | insertSegment g => some g.id
  | _ => none

end Store.Call

namespace Redis

open Server

variable {l : Layout} {fails : Nat → Bool} {known : Segment → Prop}

/-- What holds between the calls of a server that refuses commands. -/
structure Kept (l : Layout) (known : Segment → Prop) (unused : Uuid → Prop) (r : Recorded) : Prop where
  tidy : r.state.Tidy l
  legible : r.state.Legible l
  blank : ∀ id, unused id → (r.state.file l id).Blank
  sound : ∀ id, (r.state.file l id).Sound known (NoneStranded l r.notes)

/-- A command adds one note. -/
theorem notes_perform (c : Store.Call) (w : World Recorded) : w.state.notes <+: (l.perform fails c w).2.state.notes := by
  rw [Layout.perform]
  induction (l.operation c).run generalizing w with
  | done a => exact List.prefix_rfl
  | ask e next ih =>
    refine List.IsPrefix.trans ?_ (ih _ _)
    cases e with
    | now | freshId entity | tally metric amount => exact List.prefix_rfl
    | backend c => exact List.prefix_append _ _

section

variable {unused unused' : Uuid → Prop} {w : World Recorded} {id : Uuid} {r r' : Recorded} {c : Store.Call}

theorem Handles.performed {after : Except Error c.Result → File → List Note → Prop}
    (handles : Handles l id (l.operation c) (w.state.state.file l id) w.state.notes after) :
    after (l.perform fails c w).1 ((l.perform fails c w).2.state.state.file l id) (l.perform fails c w).2.state.notes ∧
      Mends l id w.state (l.perform fails c w).2.state := by
  obtain ⟨_, ends, mends⟩ :=
    Task.Secures.run (replies_faulty fails) (fun _ => trivial) Mends.trans (handles w.state rfl rfl)
  exact ⟨ends, mends⟩

theorem Reads.performed {post : c.Result → Prop} (reads : Reads w.state.state (l.operation c) post) :
    (l.perform fails c w).2.state.state = w.state.state ∧ ∀ a, (l.perform fails c w).1 = .ok a → post a := by
  obtain ⟨_, ends, _⟩ :=
    Task.Secures.run (replies_faulty fails) (fun _ => trivial) (fun _ _ => trivial) (reads w.state rfl)
  exact ends

namespace Kept

theorem of_mends (kept : Kept l known unused r) (mends : Mends l id r r')
    (sound : (r'.state.file l id).Sound known (NoneStranded l r'.notes)) (blank : unused' id → (r'.state.file l id).Blank)
    (fewer : ∀ id, unused' id → unused id) : Kept l known unused' r' where
  tidy := mends.edit.tidy kept.tidy
  legible := mends.legible kept.legible
  blank other new := by
    by_cases own : other = id
    · subst own
      exact blank new
    · rw [mends.edit.others other own]
      exact kept.blank other (fewer other new)
  sound other := by
    by_cases own : other = id
    · subst own
      exact sound
    · rw [mends.edit.others other own]
      exact (kept.sound other).later mends.notes

/-- A call that leaves what is stored for its segment as it was, or writes its size. -/
theorem of_resized (kept : Kept l known unused r) (mends : Mends l id r r')
    (resized : r'.state.file l id = r.state.file l id ∨ r'.state.file l id = { r.state.file l id with sized := true })
    (fewer : ∀ id, unused' id → unused id) : Kept l known unused' r' := by
  have sound := (kept.sound id).later mends.notes
  refine kept.of_mends mends ?_ (fun new => ?_) fewer
  · rcases resized with same | same
    · exact same ▸ sound
    · exact same ▸ sound.resized
  · have blank := kept.blank id (fewer id new)
    rcases resized with same | same
    · exact same ▸ blank
    · exact same ▸ ⟨blank.record, blank.names⟩

theorem of_read (kept : Kept l known unused r) (same : r'.state = r.state) (later : r.notes <+: r'.notes)
    (fewer : ∀ id, unused' id → unused id) : Kept l known unused' r' where
  tidy := same ▸ kept.tidy
  legible := same ▸ kept.legible
  blank id new := same ▸ kept.blank id (fewer id new)
  sound id := same ▸ (kept.sound id).later later

/-- A call keeps all this, whichever of its commands are refused, unless it loses a record behind a name that it gave
up. -/
theorem perform (kept : Kept l known unused w.state) (port : c.ofSegments = true)
    (brought : ∀ g, c.brought? = some g → known g) (new : ∀ id, c.inserted? = some id → unused id)
    (follow : RecordsFollow Note.releases (l.perform fails c w).2.state.notes) :
    Kept l known (fun id => unused id ∧ c.inserted? ≠ some id) (l.perform fails c w).2.state := by
  have later := @notes_perform l fails c w
  have read {post : c.Result → Prop} (reads : Reads w.state.state (l.operation c) post) :
      Kept l known (fun id => unused id ∧ c.inserted? ≠ some id) (l.perform fails c w).2.state :=
    kept.of_read reads.performed.1 later fun _ => And.left
  cases c with
  | insertSegment g =>
    have blank := kept.blank g.id (new g.id rfl)
    obtain ⟨sound, mends⟩ := @Handles.performed l fails w g.id (.insertSegment g) _
      (insertSegment_handles blank (brought g rfl))
    exact kept.of_mends mends sound (fun unused => absurd rfl unused.2) fun _ => And.left
  | updateSegment g =>
    obtain ⟨sound, mends⟩ := @Handles.performed l fails w g.id (.updateSegment g) _
      (updateSegment_handles (kept.sound g.id) (brought g rfl))
    refine kept.of_mends mends (sound follow) (fun unused => ?_) fun _ => And.left
    have blank := kept.blank g.id unused.1
    rw [(@Handles.performed l fails w g.id (.updateSegment g) _ (updateSegment_handles_absent blank.record)).1.1]
    exact blank
  | deleteSegment id =>
    obtain ⟨sound, mends⟩ := @Handles.performed l fails w id (.deleteSegment id) _ (deleteSegment_handles (kept.sound id))
    refine kept.of_mends mends sound (fun unused => ?_) fun _ => And.left
    have blank := kept.blank id unused.1
    rw [(@Handles.performed l fails w id (.deleteSegment id) _ (deleteSegment_handles_absent blank.record)).1.1]
    exact blank
  | setAudienceSize id size =>
    obtain ⟨resized, mends⟩ := @Handles.performed l fails w id (.setAudienceSize id size) _ (setAudienceSize_handles size)
    exact kept.of_resized mends resized.1 fun _ => And.left
  | incrementAudienceSize id delta =>
    obtain ⟨resized, mends⟩ :=
      @Handles.performed l fails w id (.incrementAudienceSize id delta) _ (incrementAudienceSize_handles delta)
    exact kept.of_resized mends resized.1 fun _ => And.left
  | getSegment id => exact read (Reads.getSegment id)
  | findSegmentByName name => exact read (Reads.findSegmentByName name)
  | listSegments => exact read (Reads.listSegments kept.tidy kept.sound)
  | ping => exact read Reads.ping
  | insertCustomer | getCustomer | updateCustomer | deleteCustomer | listCustomers | countMatching | removeSegmentFromAll =>
    cases port

end Kept

theorem performAll_concat (calls : List Store.Call) (c : Store.Call) (w : World Recorded) :
    l.performAll fails (calls ++ [c]) w = (l.perform fails c (l.performAll fails calls w)).2 := by
  rw [Layout.performAll, List.foldl_append]
  rfl

theorem kept_empty : Kept l known unused ⟨.empty, []⟩ where
  tidy := ⟨⟨.empty, rfl, nofun⟩, ⟨.empty, rfl, nofun⟩, ⟨.empty, rfl, nofun⟩⟩
  legible _ := ⟨0, rfl⟩
  blank _ _ := ⟨rfl, fun _ => rfl⟩
  sound _ := .absent rfl fun _ _ => rfl

/-- After every call of the port, whichever commands are refused. -/
theorem kept_performAll (calls : List Store.Call) (bare : w.state = ⟨.empty, []⟩)
    (port : ∀ c ∈ calls, c.ofSegments = true) (fresh : (calls.filterMap (·.inserted?)).Nodup)
    (brought : ∀ c ∈ calls, ∀ g, c.brought? = some g → known g)
    (follow : RecordsFollow Note.releases (l.performAll fails calls w).state.notes) :
    Kept l known (· ∉ calls.filterMap (·.inserted?)) (l.performAll fails calls w).state := by
  induction calls using List.reverseRecOn with
  | nil => exact bare ▸ kept_empty
  | append_singleton calls c ih =>
    rw [performAll_concat] at follow ⊢
    rw [List.filterMap_append, List.nodup_append] at fresh
    have before := ih (fun c mem => port c (List.mem_append_left _ mem)) fresh.1
      (fun c mem => brought c (List.mem_append_left _ mem)) (follow.before (notes_perform c _))
    have last : c ∈ calls ++ [c] := List.mem_append_right _ List.mem_cons_self
    have alone {id : Uuid} (inserted : c.inserted? = some id) : id ∈ [c].filterMap (·.inserted?) := by simp [inserted]
    have kept := before.perform (port c last) (brought c last)
      (fun id inserted early => fresh.2.2 id early id (alone inserted) rfl) follow
    refine kept.of_read rfl List.prefix_rfl fun id unused => ?_
    rw [List.filterMap_append, List.mem_append, not_or] at unused
    exact ⟨unused.1, fun inserted => unused.2 (alone inserted)⟩

theorem brought_storable {c : Store.Call} {g : Segment} (storable : c.Storable) (brought : c.brought? = some g) :
    g.toJson.Storable := by
  cases c <;> cases brought <;> exact storable

/-- Calls about segments follow one another on a server that was empty, and any of their commands may be refused. If
no renaming loses its record behind the old name that it gave up, then no listing shows two segments of one name,
and a listing is answered if none of its own commands is refused. If moreover no insertion loses its record behind
the name that it claimed, and nothing stops a deletion or a renaming that is about to give up a name, then an
insertion is told of a duplicate only if a segment of that name can be found. -/
theorem names_after_refusals (calls : List Store.Call) (bare : w.state = ⟨.empty, []⟩)
    (port : ∀ c ∈ calls, c.ofSegments = true) (fresh : (calls.filterMap (·.inserted?)).Nodup) :
    (RecordsFollow Note.releases (l.performAll fails calls w).state.notes →
      (∀ listed, (l.perform fails .listSegments (l.performAll fails calls w)).1 = .ok listed →
        (listed.map (·.name)).Nodup) ∧
      ((∀ c ∈ calls, c.Storable) → ∃ listed,
        Settles l.listSegments (l.performAll fails calls w).state.state (.ok listed)
          (l.performAll fails calls w).state.state)) ∧
    ((∀ c ∈ calls, c.Storable) → ∀ (g : Segment) (name : String) (w' : World Recorded),
      l.perform fails (.insertSegment g) (l.performAll fails calls w) = (.error (.duplicateName name), w') →
        NoneStranded l w'.state.notes →
          ∃ found, found.name = name ∧
            Settles (l.findSegmentByName name) w'.state.state (.ok (some found)) w'.state.state) := by
  have storably (storable : ∀ c ∈ calls, c.Storable)
      (follow : RecordsFollow Note.releases (l.performAll fails calls w).state.notes) :=
    kept_performAll calls bare port fresh (fun c mem g => brought_storable (storable c mem)) follow
  refine ⟨fun follow => ⟨?_, fun storable => ?_⟩, ?_⟩
  · have kept := @kept_performAll l fails (fun _ => True) w calls bare port fresh (fun _ _ _ _ => trivial) follow
    exact (@Reads.performed l fails _ .listSegments _ (Reads.listSegments kept.tidy kept.sound)).2
  · have kept := storably storable follow
    exact exists_settles_listSegments kept.tidy kept.legible kept.sound
  · intro storable g name w' told none
    have told' : (l.perform fails (.insertSegment g) (l.performAll fails calls w)).1 = .error (.duplicateName name) :=
      congrArg Prod.fst told
    have same : (l.perform fails (.insertSegment g) (l.performAll fails calls w)).2 = w' := congrArg Prod.snd told
    have earlier := none.before (same ▸ notes_perform (.insertSegment g) _)
    have kept := storably storable earlier.recordsFollow
    have ran := insertSegment_duplicate (l := l) g (l.performAll fails calls w).state
    obtain ⟨_, ends, _⟩ := ran.run (replies_faulty fails) (fun _ => trivial) fun _ _ => trivial
    obtain ⟨_, unchanged, owner, taken⟩ := ends name told'
    have unchanged : w'.state.state = (l.performAll fails calls w).state.state := same ▸ unchanged
    rw [unchanged]
    exact exists_settles_findSegmentByName kept.tidy kept.legible (fun id => (kept.sound id).mono fun _ => earlier) taken

end

/-- A segment is created, which is refused its size, and renamed, which is refused a look at the record. -/
def unsettled : List Store.Call :=
  [.insertSegment (bare (.counting 1) "Regulars"), .updateSegment (bare (.counting 1) "Lapsed")]

def afterwards : World Recorded :=
  Layout.performAll ⟨"p", 1⟩ (· ∈ [3, 4]) unsettled nothing

/-- Another segment of the name is to be created after that. -/
def again : Except Error Unit × World Recorded :=
  Layout.perform ⟨"p", 1⟩ (· ∈ [3, 4]) (.insertSegment (bare (.counting 2) "Regulars")) afterwards

theorem names_after_refused_size :
    again.1 = .error (.duplicateName "Regulars") ∧ ¬ again.2.state.Accepted ∧
      ((∀ listed, (Layout.perform ⟨"p", 1⟩ (· ∈ [3, 4]) .listSegments afterwards).1 = .ok listed →
          (listed.map (·.name)).Nodup) ∧
        ∃ listed, Settles (Layout.listSegments ⟨"p", 1⟩) afterwards.state.state (.ok listed) afterwards.state.state) ∧
      ∃ found, found.name = "Regulars" ∧
        Settles (Layout.findSegmentByName ⟨"p", 1⟩ "Regulars") again.2.state.state (.ok (some found))
          again.2.state.state := by
  have told : again.1 = .error (.duplicateName "Regulars") := by decide +kernel
  have refused : ¬ again.2.state.Accepted := by decide +kernel
  have none : NoneStranded ⟨"p", 1⟩ again.2.state.notes := by decide +kernel
  have storable : ∀ c ∈ unsettled, c.Storable := by
    have nestable : (Json.array []).Nestable := ⟨trivial, trivial, by decide⟩
    simp [unsettled, Store.Call.Storable, Segment.storable_iff, bare, nestable]
  have both := @names_after_refusals ⟨"p", 1⟩ (· ∈ [3, 4]) nothing unsettled rfl (by decide) (by decide)
  have follow := (none.before (notes_perform (.insertSegment (bare (.counting 2) "Regulars")) _)).recordsFollow
  obtain ⟨unique, answered⟩ := both.1 follow
  exact ⟨told, refused, ⟨unique, answered storable⟩,
    both.2 storable (bare (.counting 2) "Regulars") _ _ (Prod.ext told rfl) none⟩

end Redis

end CustomerSegments
