import CustomerSegments.Proofs.SegmentFiles

namespace CustomerSegments

/-- A call that writes what is stored for one segment. -/
inductive SegmentWrite where
  | insert (g : Segment)
  | update (g : Segment)
  | delete (id : Uuid)

namespace SegmentWrite

def call : SegmentWrite → Store.Call
  | insert g => .insertSegment g
  | update g => .updateSegment g
  | delete id => .deleteSegment id

/-- The segment that a call is about. -/
def subject : SegmentWrite → Uuid
  | insert g | update g => g.id
  | delete id => id

/-- The segment that a call brings in. -/
def inserted? : SegmentWrite → Option Uuid
  | insert g => some g.id
  | update _ | delete _ => none

/-- The segment that a call has deleted. -/
def deleted? : (c : SegmentWrite) → Except Error c.call.Result → Option Uuid
  | delete id, .ok (some _) => some id
  | _, _ => none

theorem subject_of_inserted {c : SegmentWrite} {id : Uuid} (inserted : c.inserted? = some id) : c.subject = id := by
  cases c <;> cases inserted
  rfl

theorem subject_of_deleted {c : SegmentWrite} {o : Except Error c.call.Result} {id : Uuid}
    (deleted : c.deleted? o = some id) : c.subject = id ∧ c.inserted? = none := by
  unfold deleted? at deleted
  split at deleted
  · cases deleted
    exact ⟨rfl, rfl⟩
  · cases deleted

end SegmentWrite

namespace Redis

open Server

/-- How a call on one segment behaves: it has what is stored for the segment to itself and leaves what is
stored for the others alone. What was there at its start goes along with it. -/
def minding (l : Layout) (id : Uuid) : Conduct Server (Option Segment) where
  rely s s' := s'.file l id = s.file l id
  step v s v' s' := v' = v ∧ Edit l id s s'
  rely_refl _ := rfl
  rely_trans first rest := rest.trans first
  idle _ s := ⟨rfl, .refl l id s⟩

/-- An operation that finds something stored for a segment leaves, with an outcome, something else. -/
def Transforms (l : Layout) (minted : Uuid → Prop) (id : Uuid) {α : Type} (op : Operation α) (before : File)
    (after : Except Error α → File → Prop) : Prop :=
  ∀ v s, s.file l id = before →
    Attempt.Secures (serving minted) (minding l id) op (fun o v' s' => v' = v ∧ after o (s'.file l id)) v s

/-- An outcome that is no error, and what is stored then. -/
def Becomes {α : Type} (F : File) (o : Except Error α) (F' : File) : Prop :=
  (∃ a, o = .ok a) ∧ F' = F

variable {l : Layout} {minted : Uuid → Prop} {id : Uuid} {α β : Type} {F : File} {g : Option Segment} {seg : Segment}
  {name : String}

namespace Transforms

theorem pure {a : α} {after : Except Error α → File → Prop} (ends : after (.ok a) F) :
    Transforms l minted id (Pure.pure a) F after := by
  rintro v s rfl
  exact Attempt.secures_pure fun s' others => ⟨rfl, by rwa [show s'.file l id = s.file l id from others]⟩

theorem settled {outcome : Except Error α} {after : Except Error α → File → Prop} (ends : after outcome F) :
    Transforms l minted id (Attempt.settled outcome) F after := by
  rintro v s rfl
  exact Attempt.secures_settled fun s' others => ⟨rfl, by rwa [show s'.file l id = s.file l id from others]⟩

theorem throw {e : Error} {after : Except Error α → File → Prop} (ends : after (.error e) F) :
    Transforms l minted id (MonadExcept.throw e) F after :=
  settled ends

theorem bind {op : Operation α} {next : α → Operation β} {mid : Except Error α → File → Prop}
    {after : Except Error β → File → Prop} (first : Transforms l minted id op F mid)
    (rest : ∀ a F', mid (.ok a) F' → Transforms l minted id (next a) F' after)
    (failed : ∀ e F', mid (.error e) F' → after (.error e) F') : Transforms l minted id (op >>= next) F after := by
  intro v s found
  refine Attempt.secures_bind ((first v s found).stable.mono fun o v' s' ends => ?_)
  obtain ⟨rfl, reached⟩ := ends s' ((minding l id).rely_refl s')
  cases o with
  | ok a => exact rest a _ reached v' s' rfl
  | error e => exact fun s'' others => ⟨rfl, failed e _ (ends s'' others).2⟩

theorem mono {op : Operation α} {after after' : Except Error α → File → Prop} (ran : Transforms l minted id op F after)
    (weaker : ∀ o F', after o F' → after' o F') : Transforms l minted id op F after' :=
  fun v s found => (ran v s found).mono fun o _ _ ends => ⟨ends.1, weaker o _ ends.2⟩

theorem map {op : Operation α} {f : α → β} {after : Except Error β → File → Prop}
    (ran : Transforms l minted id op F fun o F' => after (o.map f) F') : Transforms l minted id (f <$> op) F after :=
  fun v s found => Attempt.secures_map (ran v s found)

/-- A command that is not refused. -/
theorem send {c : Command} {after : c.Result → File → Prop}
    (edits : ∀ s r s', s.file l id = F → s.execute c = .ok (r, s') → Edit l id s s' ∧ after r (s'.file l id)) :
    Transforms l minted id (send c) F fun o F' => ∃ r, o = .ok r ∧ after r F' := by
  rintro v s rfl
  refine secures_send fun s' others r s'' executed => ?_
  obtain ⟨edit, reached⟩ := edits s' r s'' others executed
  exact ⟨v, ⟨rfl, edit⟩, fun t more => ⟨rfl, r, rfl, by rwa [show t.file l id = s''.file l id from more]⟩⟩

/-- What leaves one thing behind, and what follows. -/
theorem next {op : Operation α} {F' : File} {next : α → Operation β} {after : Except Error β → File → Prop}
    (first : Transforms l minted id op F (Becomes F')) (rest : ∀ a, Transforms l minted id (next a) F' after) :
    Transforms l minted id (op >>= next) F after := by
  refine first.bind ?_ ?_
  · rintro a _ ⟨_, rfl⟩
    exact rest a
  · rintro e _ ⟨⟨_, failed⟩, _⟩
    cases failed

/-- A command that makes one thing of what is stored. -/
theorem becomes {c : Command} {F' : File}
    (edits : ∀ s r s', s.file l id = F → s.execute c = .ok (r, s') → Edit l id s s' ∧ s'.file l id = F') :
    Transforms l minted id (Redis.send c) F (Becomes F') :=
  mono (send edits) fun _ _ ⟨r, same, reached⟩ => ⟨⟨r, same⟩, reached⟩

theorem set (text : String) :
    Transforms l minted id (Redis.send (.set (l.segmentKey id.text) text)) F
      (Becomes { F with record := some (.string text) }) :=
  becomes fun _ _ _ found executed => found ▸ edit_set executed

theorem del : Transforms l minted id (Redis.send (.del (l.segmentKey id.text))) F (Becomes { F with record := none }) :=
  becomes fun _ _ _ found executed => found ▸ edit_del executed

theorem sadd : Transforms l minted id (Redis.send (.sadd l.segmentsKey id.text)) F (Becomes { F with listed := true }) :=
  becomes fun _ _ _ found executed => found ▸ edit_sadd executed

theorem srem : Transforms l minted id (Redis.send (.srem l.segmentsKey id.text)) F (Becomes { F with listed := false }) :=
  becomes fun _ _ _ found executed => found ▸ edit_srem executed

theorem hset (text : String) :
    Transforms l minted id (Redis.send (.hset l.audienceKey id.text text)) F (Becomes { F with sized := true }) :=
  becomes fun _ _ _ found executed => found ▸ edit_hset executed

theorem hdel_size :
    Transforms l minted id (Redis.send (.hdel l.audienceKey id.text)) F (Becomes { F with sized := false }) :=
  becomes fun _ _ _ found executed => found ▸ edit_hdel_size executed

theorem hdel_name (led : F.names name = true) :
    Transforms l minted id (Redis.send (.hdel l.namesKey name)) F
      (Becomes { F with names := fun n => !decide (n = name) && F.names n }) :=
  becomes fun _ _ _ found executed => by
    subst found
    exact edit_hdel_name executed led

/-- A name is claimed, or it leads somewhere. -/
theorem hsetnx (name : String) :
    Transforms l minted id (Redis.send (.hsetnx l.namesKey name id.text)) F fun o F' =>
      ∃ claimed, o = .ok claimed ∧
        F' = if claimed then { F with names := fun n => decide (n = name) || F.names n } else F := by
  refine send fun s claimed s' found executed => ?_
  rcases edit_hsetnx executed with ⟨rfl, edit, reached⟩ | ⟨rfl, rfl⟩
  · exact ⟨edit, found ▸ reached⟩
  · exact ⟨.refl l id s', found⟩

/-- A look at where a name leads. -/
theorem hget_name (name : String) :
    Transforms l minted id (Redis.send (.hget l.namesKey name)) F fun o F' =>
      ∃ owner, o = .ok owner ∧ F' = F ∧ F.names name = decide (owner = some id.text) := by
  refine send fun s owner s' found executed => ?_
  obtain ⟨rows, stored, rfl, rfl⟩ := execute_hget.1 executed
  refine ⟨.refl l id s', found, ?_⟩
  rw [← found, file, nameRows_of_ok stored]

theorem hget_size : Transforms l minted id (Redis.send (.hget l.audienceKey id.text)) F (Becomes F) := by
  refine becomes fun s r s' found executed => ?_
  obtain ⟨_, _, _, rfl⟩ := execute_hget.1 executed
  exact ⟨.refl l id s', found⟩

end Transforms

/-- A look at a segment finds what is stored, as far as the name goes, and changes nothing. -/
def Sees (g : Option Segment) (o : Except Error (Option Segment)) (F : File) : Prop :=
  F = .of g ∧ ∀ found, o = .ok found → found.map (·.name) = g.map (·.name)

theorem segmentRecord_transforms : Transforms l minted id (l.segmentRecord id) (.of g) (Sees g) := by
  have stored : Transforms l minted id (send (.get (l.segmentKey id.text))) (.of g) fun o F =>
      ∃ text, o = .ok text ∧ F = .of g ∧ text = g.map (·.text) := by
    refine Transforms.send fun s text s' found executed => ?_
    obtain ⟨read, rfl⟩ := execute_get.1 executed
    refine ⟨.refl l id _, found, ?_⟩
    have record : text.map Entry.string = (g.map (·.text)).map Entry.string :=
      (string?_eq_ok_iff.1 read).symm.trans ((congrArg File.record found).trans (Option.map_map _ _ g).symm)
    exact Option.map_injective (fun _ _ => Entry.string.inj) record
  refine stored.bind ?_ fun e F ⟨_, failed, _⟩ => nomatch failed
  rintro text F ⟨_, same, rfl, known⟩
  cases same
  subst known
  cases g with
  | none => exact .pure ⟨rfl, fun found same => by cases same; rfl⟩
  | some g =>
    refine .map (.settled ⟨rfl, fun found same => ?_⟩)
    rw [decode] at same
    split at same
    · next read =>
      cases same
      exact congrArg some (Segment.name_of_decodeText read)
    · cases same

theorem audienceSize_transforms : Transforms l minted id (l.audienceSize id) F fun _ F' => F' = F := by
  refine Transforms.hget_size.next fun text => ?_
  cases text with
  | none => exact .pure rfl
  | some text => exact .settled rfl

theorem Sees.failed {o : Except Error (Option Segment)} (seen : Sees g o F) (e : Error) : Sees g (.error e) F :=
  ⟨seen.1, fun _ same => by cases same⟩

theorem getSegment_transforms : Transforms l minted id (l.getSegment id) (.of g) (Sees g) := by
  refine segmentRecord_transforms.bind ?_ fun e F failed => failed.failed e
  rintro found F ⟨rfl, seen⟩
  have seen := seen found rfl
  cases found with
  | none =>
    refine .pure ⟨rfl, fun found same => ?_⟩
    cases same
    exact seen
  | some r =>
    refine audienceSize_transforms.bind ?_ fun e F same => ⟨same, fun _ failed => by cases failed⟩
    rintro size F rfl
    refine .pure ⟨rfl, fun found same => ?_⟩
    cases same
    exact seen

/-- A deletion takes away everything that is stored for a segment. -/
theorem deleteSegment_transforms :
    Transforms l minted id (l.deleteSegment id) (.of g) fun o F =>
      (∃ e, o = .error e) ∧ F = .of g ∨
        ∃ found, o = .ok found ∧ found.map (·.name) = g.map (·.name) ∧ F = .of none := by
  refine getSegment_transforms.bind ?_ fun e F ⟨same, _⟩ => .inl ⟨⟨e, rfl⟩, same⟩
  rintro found F ⟨rfl, seen⟩
  have seen := seen found rfl
  cases found with
  | none =>
    cases g with
    | none => exact .pure (.inr ⟨none, rfl, rfl, rfl⟩)
    | some g => cases seen
  | some r =>
    cases g with
    | none => cases seen
    | some g =>
      have name : r.name = g.name := Option.some.inj seen
      refine Transforms.del.next fun _ => Transforms.srem.next fun _ => ?_
      refine (Transforms.hdel_name (by simp [File.of, name])).next fun _ => Transforms.hdel_size.next fun _ => ?_
      refine .pure (.inr ⟨some r, rfl, seen, ?_⟩)
      simp [File.of, name]

/-- A new name is claimed and the old one given up, or the new one leads to another segment. -/
theorem rename_transforms {old new : String} (led : F.names old = true) (free : F.names new = false) :
    Transforms l minted id (l.rename id old new) F fun o F' =>
      (∃ e, o = .error e) ∧ F' = F ∨
        o = .ok () ∧ F' = { F with names := fun n => !decide (n = old) && (decide (n = new) || F.names n) } := by
  refine (Transforms.hsetnx new).bind ?_ fun e F' ⟨_, failed, _⟩ => nomatch failed
  rintro claimed _ ⟨_, same, rfl⟩
  cases same
  cases claimed with
  | true =>
    refine (Transforms.hdel_name (by simp [led])).mono ?_
    rintro o F' ⟨⟨_, rfl⟩, rfl⟩
    exact .inr ⟨rfl, rfl⟩
  | false =>
    have looked : Transforms l minted id (send (.hget l.namesKey new)) F _ := .hget_name new
    refine looked.bind ?_ fun e F' ⟨_, failed, _⟩ => nomatch failed
    rintro owner F ⟨_, same, rfl, leads⟩
    cases same
    have apart : owner ≠ some id.text := of_decide_eq_false (leads.symm.trans free)
    have refused : Transforms l minted id (throw (.duplicateName new) : Operation PUnit) F fun o F' =>
        o = .error (.duplicateName new) ∧ F' = F := .throw ⟨rfl, rfl⟩
    dsimp only
    rw [if_pos apart]
    refine refused.bind ?_ ?_
    · rintro _ _ ⟨failed, _⟩
      cases failed
    · rintro e _ ⟨_, rfl⟩
      exact .inl ⟨⟨e, rfl⟩, rfl⟩

/-- An update leaves the new record and the new name, or everything as it was. -/
theorem updateSegment_transforms (own : seg.id = id) :
    Transforms l minted id (l.updateSegment seg) (.of g) fun o F =>
      (∃ e, o = .error e) ∧ F = .of g ∨ o = .ok () ∧ g.isSome = true ∧ F = .of (some seg) := by
  subst own
  refine segmentRecord_transforms.bind ?_ fun e F ⟨same, _⟩ => .inl ⟨⟨e, rfl⟩, same⟩
  rintro found F ⟨rfl, seen⟩
  have seen := seen found rfl
  cases found with
  | none =>
    refine .throw (.inl ⟨⟨_, rfl⟩, ?_⟩)
    rfl
  | some r =>
    cases g with
    | none => cases seen
    | some g =>
      have name : r.name = g.name := Option.some.inj seen
      dsimp only
      split
      · next other =>
        rw [name] at other ⊢
        have renamed := @rename_transforms l minted seg.id (.of (some g)) g.name seg.name (by simp [File.of])
          (by simp [File.of, Ne.symm other])
        refine renamed.bind ?_ ?_
        · rintro _ _ (⟨⟨_, failed⟩, _⟩ | ⟨_, rfl⟩)
          · cases failed
          · refine (Transforms.set _).mono ?_
            rintro o F' ⟨⟨_, rfl⟩, rfl⟩
            refine .inr ⟨rfl, rfl, ?_⟩
            have names : (fun n => !decide (n = g.name) && (decide (n = seg.name) || decide (n = g.name))) =
                fun n => decide (n = seg.name) := by
              funext n
              by_cases here : n = g.name
              · simp [here, other]
              · simp [here]
            simp [File.of, names]
        · rintro e _ (⟨_, rfl⟩ | ⟨failed, _⟩)
          · exact .inl ⟨⟨e, rfl⟩, rfl⟩
          · cases failed
      · next same =>
        refine (Transforms.set _).mono ?_
        rintro o F' ⟨⟨_, rfl⟩, rfl⟩
        refine .inr ⟨rfl, rfl, ?_⟩
        have unchanged : g.name = seg.name := name.symm.trans (Classical.not_not.1 same)
        simp [File.of, unchanged]

/-- An insertion leaves a new segment, or nothing if its name leads to another one. -/
theorem insertSegment_transforms (own : seg.id = id) :
    Transforms l minted id (l.insertSegment seg) (.of none) fun o F =>
      (∃ e, o = .error e) ∧ F = .of none ∨ o = .ok () ∧ F = .of (some seg) := by
  subst own
  refine (Transforms.hsetnx seg.name).bind ?_ fun e F' ⟨_, failed, _⟩ => nomatch failed
  rintro claimed _ ⟨_, same, rfl⟩
  cases same
  cases claimed with
  | false => exact .throw (.inl ⟨⟨_, rfl⟩, rfl⟩)
  | true =>
    refine (Transforms.set _).next fun _ => Transforms.sadd.next fun _ => (Transforms.hset _).mono ?_
    rintro o F' ⟨⟨_, rfl⟩, rfl⟩
    refine .inr ⟨rfl, ?_⟩
    simp [File.of]

/-- What a call leaves behind that found something stored for its segment: again a whole segment or none. Only an
insertion brings one in, and a deletion of one takes it away. -/
def Leaves (c : SegmentWrite) (g : Option Segment) (o : Except Error c.call.Result) (F : File) : Prop :=
  ∃ g', F = .of g' ∧ (∀ r, g' = some r → r.id = c.subject) ∧ (g = none → c.inserted? = none → g' = none) ∧
    ∀ id, c.deleted? o = some id → g.isSome = true ∧ g' = none

/-- A call that has not deleted a segment. -/
theorem Leaves.of_spared {c : SegmentWrite} {g g' : Option Segment} {o : Except Error c.call.Result}
    (spared : c.deleted? o = none) (own : ∀ r, g' = some r → r.id = c.subject)
    (kept : g = none → c.inserted? = none → g' = none) : Leaves c g o (.of g') :=
  ⟨g', rfl, own, kept, fun id deleted => by cases spared.symm.trans deleted⟩

theorem write_transforms (c : SegmentWrite) {g : Option Segment} (own : ∀ r, g = some r → r.id = c.subject)
    (new : c.inserted? ≠ none → g = none) :
    Transforms l minted c.subject (l.operation c.call) (.of g) (Leaves c g) := by
  cases c with
  | insert seg =>
    rw [new (Option.some_ne_none _)]
    refine (insertSegment_transforms rfl).mono ?_
    rintro o F (⟨_, rfl⟩ | ⟨_, rfl⟩)
    · exact .of_spared rfl (fun _ none => by cases none) fun _ _ => rfl
    · exact .of_spared rfl (fun r same => Option.some.inj same ▸ rfl) fun _ inserted => by cases inserted
  | update seg =>
    refine (updateSegment_transforms rfl).mono ?_
    rintro o F (⟨_, rfl⟩ | ⟨_, found, rfl⟩)
    · exact .of_spared rfl own fun none _ => none
    · refine .of_spared rfl (fun r same => Option.some.inj same ▸ rfl) fun none _ => ?_
      rw [none] at found
      cases found
  | delete id =>
    refine deleteSegment_transforms.mono ?_
    rintro o F (⟨⟨e, rfl⟩, rfl⟩ | ⟨found, rfl, seen, rfl⟩)
    · exact .of_spared rfl own fun none _ => none
    · refine ⟨none, rfl, (fun _ none => by cases none), fun _ _ => rfl, fun _ deleted => ⟨?_, rfl⟩⟩
      cases found with
      | none => cases deleted
      | some r =>
        cases g with
        | none => cases seen
        | some g => rfl

end Redis

end CustomerSegments
