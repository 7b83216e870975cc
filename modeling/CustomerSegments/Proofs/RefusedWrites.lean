import CustomerSegments.Proofs.RefusedCommands
import Mathlib.Data.List.Chain

namespace CustomerSegments

namespace Redis

open Server

namespace Note

/-- A name may be given up here. -/
def releases : Note → Bool
  | ⟨.hdel _ _, _⟩ => true
  | _ => false

/-- A name may be claimed here. -/
def claims : Note → Bool
  | ⟨.hsetnx _ _ _, _⟩ => true
  | _ => false

/-- A record is not written. -/
def unwritten : Note → Bool
  | ⟨.set _ _, .error _⟩ => true
  | _ => false

/-- A deletion or a renaming stops before it gives up a name. -/
def strands (l : Layout) : Note → Bool
  | ⟨.srem _ _, .error _⟩ => true
  | ⟨.hdel key _, .error _⟩ => key == l.namesKey
  | _ => false

end Note

/-- Right behind commands of a kind, no record is left unwritten. -/
def RecordsFollow (behind : Note → Bool) (notes : List Note) : Prop :=
  notes.IsChain fun a b => ¬ (behind a = true ∧ b.unwritten = true)

instance (behind : Note → Bool) (notes : List Note) : Decidable (RecordsFollow behind notes) :=
  inferInstanceAs (Decidable (List.IsChain _ _))

/-- Every name that is claimed has its record, and every name without one is given up. -/
def NoneStranded (l : Layout) (notes : List Note) : Prop :=
  RecordsFollow (fun note => note.claims || note.releases) notes ∧ ∀ note ∈ notes, note.strands l = false

instance (l : Layout) (notes : List Note) : Decidable (NoneStranded l notes) :=
  inferInstanceAs (Decidable (_ ∧ _))

variable {l : Layout} {id : Uuid} {F : File} {notes notes' : List Note} {behind : Note → Bool} {known : Segment → Prop}
  {strict strict' : Prop} {g : Segment}

theorem noted {note : Note} (later : notes <+: notes') : notes <+: notes' ++ [note] :=
  later.trans (List.prefix_append _ _)

theorem RecordsFollow.before (follow : RecordsFollow behind notes') (earlier : notes <+: notes') :
    RecordsFollow behind notes :=
  List.IsChain.prefix follow earlier

theorem NoneStranded.before (none : NoneStranded l notes') (earlier : notes <+: notes') : NoneStranded l notes :=
  ⟨none.1.before earlier, fun note mem => none.2 note (earlier.subset mem)⟩

theorem NoneStranded.recordsFollow (none : NoneStranded l notes) : RecordsFollow Note.releases notes :=
  none.1.imp fun a _ apart behind => apart ⟨by simp [behind.1], behind.2⟩

theorem not_recordsFollow {a : Note} {key text : String} {refusal : Refusal} (kind : behind a = true) :
    ¬ RecordsFollow behind (notes ++ [a] ++ [Note.refused (.set key text) refusal]) := by
  intro follow
  have last := (List.isChain_append.1 follow).2.2
  exact last a (by simp) (Note.refused (.set key text) refusal) (by simp) ⟨kind, rfl⟩

theorem not_noneStranded {note : Note} (strands : note.strands l = true) : ¬ NoneStranded l (notes ++ [note]) := by
  intro none
  have last := none.2 note (by simp)
  rw [strands] at last
  cases last

/-- What is stored for a segment is nothing, or a record whose name leads to it. Strictly, no other name does. -/
inductive File.Sound (known : Segment → Prop) (strict : Prop) (F : File) : Prop where
  | absent (record : F.record = none) (unnamed : strict → ∀ name, F.names name = false)
  | stored (g : Segment) (brought : known g) (record : F.record = some (.string g.text))
      (named : F.names g.name = true) (only : strict → ∀ name, F.names name = true → name = g.name)

/-- Neither a record nor a name is stored for a segment. -/
structure File.Blank (F : File) : Prop where
  record : F.record = none
  names : ∀ name, F.names name = false

theorem File.Blank.sound (blank : F.Blank) : F.Sound known strict :=
  .absent blank.record fun _ => blank.names

theorem File.Sound.mono (sound : F.Sound known strict) (weaker : strict' → strict) : F.Sound known strict' := by
  cases sound with
  | absent record unnamed => exact .absent record (unnamed ∘ weaker)
  | stored g brought record named only => exact .stored g brought record named (only ∘ weaker)

theorem File.Sound.resized {sized : Bool} (sound : F.Sound known strict) : { F with sized := sized }.Sound known strict := by
  cases sound with
  | absent record unnamed => exact .absent record unnamed
  | stored g brought record named only => exact .stored g brought record named only

theorem File.Sound.later (sound : F.Sound known (NoneStranded l notes)) (later : notes <+: notes') :
    F.Sound known (NoneStranded l notes') :=
  sound.mono fun none => none.before later

/-- A look at a segment changes nothing, and finds the name of the record. -/
def Recalls (F : File) (notes : List Note) (o : Except Error (Option Segment)) (F' : File) (notes' : List Note) : Prop :=
  F' = F ∧ notes <+: notes' ∧
    ∀ r, o = .ok (some r) → F.record ≠ none ∧ ∀ g : Segment, F.record = some (.string g.text) → r.name = g.name

theorem Recalls.failed {o : Except Error (Option Segment)} {F' : File} (recalls : Recalls F notes o F' notes') (e : Error) :
    Recalls F notes (.error e) F' notes' :=
  ⟨recalls.1, recalls.2.1, fun _ same => by cases same⟩

theorem segmentRecord_handles : Handles l id (l.segmentRecord id) F notes (Recalls F notes) := by
  have read : Handles l id (send (.get (l.segmentKey id.text))) F notes
      (Tries F notes _ fun text F' => F' = F ∧ F.record = text.map .string) := by
    refine Handles.look (fun executed => (execute_get.1 executed).2) fun s text found executed => ⟨rfl, ?_⟩
    rw [← found]
    exact string?_eq_ok_iff.1 (execute_get.1 executed).1
  refine read.next (fun refusal => ⟨rfl, noted List.prefix_rfl, fun _ same => by cases same⟩) ?_
  rintro text F ⟨rfl, stored⟩
  cases text with
  | none => exact .pure ⟨rfl, noted List.prefix_rfl, fun _ same => by cases same⟩
  | some text =>
    refine .map (.settled ⟨rfl, noted List.prefix_rfl, fun r same => ⟨?_, fun g record => ?_⟩⟩)
    · rw [stored]
      exact Option.some_ne_none _
    · cases stored.symm.trans record
      rw [decode] at same
      split at same
      · next read =>
        cases same
        exact Segment.name_of_decodeText read
      · cases same

theorem getSegment_handles : Handles l id (l.getSegment id) F notes (Recalls F notes) := by
  refine segmentRecord_handles.bind (fun e F' notes' failed => failed.failed e) ?_
  rintro found F notes' ⟨rfl, later, recalled⟩
  cases found with
  | none => exact .pure ⟨rfl, later, fun _ same => by cases same⟩
  | some r =>
    have size : Handles l id (l.audienceSize id) F notes' fun _ F' notes' => F' = F ∧ notes <+: notes' := by
      refine Handles.hget_size.next (fun _ => ⟨rfl, noted later⟩) ?_
      rintro text F rfl
      cases text with
      | none => exact .pure ⟨rfl, noted later⟩
      | some text => exact .settled ⟨rfl, noted later⟩
    refine size.bind (fun e F' notes' ends => ⟨ends.1, ends.2, fun _ same => by cases same⟩) ?_
    rintro size F notes' ⟨rfl, later⟩
    refine .pure ⟨rfl, later, fun r' same => ?_⟩
    cases same
    exact recalled r rfl

/-- An update of a segment without a record changes nothing. -/
theorem updateSegment_handles_absent (gone : F.record = none) :
    Handles l g.id (l.updateSegment g) F notes fun _ F' notes' => F' = F ∧ notes <+: notes' := by
  refine segmentRecord_handles.bind (fun e F' notes' failed => ⟨failed.1, failed.2.1⟩) ?_
  rintro found F notes' ⟨rfl, later, recalled⟩
  cases found with
  | none => exact .throw ⟨rfl, later⟩
  | some r => exact absurd gone (recalled r rfl).1

/-- A deletion of a segment without a record changes nothing. -/
theorem deleteSegment_handles_absent (gone : F.record = none) :
    Handles l id (l.deleteSegment id) F notes fun _ F' notes' => F' = F ∧ notes <+: notes' := by
  refine getSegment_handles.bind (fun e F' notes' failed => ⟨failed.1, failed.2.1⟩) ?_
  rintro found F notes' ⟨rfl, later, recalled⟩
  cases found with
  | none => exact .pure ⟨rfl, later⟩
  | some r => exact absurd gone (recalled r rfl).1

/-- An insertion leaves a record with its name, or nothing but perhaps the name. -/
theorem insertSegment_handles (blank : F.Blank) (brought : known g) :
    Handles l g.id (l.insertSegment g) F notes fun _ F' notes' => F'.Sound known (NoneStranded l notes') := by
  refine (Handles.hsetnx g.name).next (fun _ => blank.sound) ?_
  rintro claimed F' rfl
  cases claimed with
  | false => exact .throw blank.sound
  | true =>
    have named (name : String) : (decide (name = g.name) || F.names name) = decide (name = g.name) := by
      rw [blank.names, Bool.or_false]
    simp only [if_true, named]
    refine (Handles.set _).next (fun refusal => ?_) ?_
    · exact .absent blank.record fun none => absurd none.1 (not_recordsFollow rfl)
    · rintro _ F₁ rfl
      have sound {strict : Prop} {listed sized : Bool} :
          (⟨some (.string g.text), listed, sized, fun name => decide (name = g.name)⟩ : File).Sound known strict :=
        .stored g brought rfl (decide_eq_true rfl) fun _ name => of_decide_eq_true
      refine Handles.sadd.next (fun _ => sound) ?_
      rintro _ F₂ rfl
      refine (Handles.hset _).last (fun _ => sound) ?_
      rintro _ F₃ rfl
      exact sound

/-- A deletion of a segment takes away the record first, and then its name. -/
theorem deleteSegment_handles (sound : F.Sound known (NoneStranded l notes)) :
    Handles l id (l.deleteSegment id) F notes fun _ F' notes' => F'.Sound known (NoneStranded l notes') := by
  cases sound with
  | absent gone unnamed =>
    refine (deleteSegment_handles_absent gone).mono ?_
    rintro _ F notes' ⟨rfl, later⟩
    exact File.Sound.later (.absent gone unnamed) later
  | stored g brought record named only =>
    have sound : F.Sound known (NoneStranded l notes) := .stored g brought record named only
    refine getSegment_handles.bind (fun e F' notes' failed => failed.1 ▸ sound.later failed.2.1) ?_
    rintro found F mid ⟨rfl, later, recalled⟩
    cases found with
    | none => exact .pure (sound.later later)
    | some r =>
      have name : r.name = g.name := (recalled r rfl).2 g record
      refine Handles.del.next (fun _ => sound.later (noted later)) ?_
      rintro _ F₁ rfl
      refine Handles.srem.next (fun _ => .absent rfl fun none => absurd none (not_noneStranded rfl)) ?_
      rintro _ F₂ rfl
      refine (@Handles.hdel_name l id _ _ r.name (name ▸ named)).next (fun _ => ?_) ?_
      · exact .absent rfl fun none => absurd none (not_noneStranded (beq_self_eq_true l.namesKey))
      · rintro _ F₃ rfl
        have released {notes' : List Note} {sized : Bool} (later : notes <+: notes') :
            File.Sound known (NoneStranded l notes') ⟨none, false, sized, fun n => !decide (n = r.name) && F.names n⟩ := by
          refine .absent rfl fun none n => ?_
          rw [name, Bool.and_eq_false_iff, Bool.not_eq_false', decide_eq_true_eq, or_iff_not_imp_right, Bool.not_eq_false]
          exact only (none.before later) n
        refine Handles.hdel_size.next (fun _ => released (noted (noted (noted (noted later))))) ?_
        rintro _ F₄ rfl
        exact .pure (released (noted (noted (noted (noted later)))))

/-- How a renaming ends: it stops before anything is changed or with both names claimed, or the old name is given up
at its end. -/
inductive Renaming (l : Layout) (old new : String) (F : File) (notes : List Note) :
    Except Error Unit → File → List Note → Prop where
  | refused (e : Error) {notes' : List Note} (later : notes <+: notes') : Renaming l old new F notes (.error e) F notes'
  | stopped (e : Error) {notes' : List Note} (later : notes <+: notes') (stranded : ¬ NoneStranded l notes') :
      Renaming l old new F notes (.error e) { F with names := fun n => decide (n = new) || F.names n } notes'
  | renamed {mid : List Note} (later : notes <+: mid) :
      Renaming l old new F notes (.ok ()) { F with names := fun n => !decide (n = old) && (decide (n = new) || F.names n) }
        (mid ++ [Note.accepted (.hdel l.namesKey old) ()])

theorem rename_handles {old new : String} (led : F.names old = true) :
    Handles l id (l.rename id old new) F notes (Renaming l old new F notes) := by
  have once {note : Note} : notes <+: notes ++ [note] := noted List.prefix_rfl
  refine (Handles.hsetnx new).next (fun _ => .refused _ once) ?_
  rintro claimed F' rfl
  cases claimed with
  | true =>
    have led : (decide (old = new) || F.names old) = true := by rw [led, Bool.or_true]
    refine (Handles.hdel_name led).last (fun _ => ?_) ?_
    · exact .stopped _ (noted once) (not_noneStranded (beq_self_eq_true l.namesKey))
    · rintro _ F₁ rfl
      exact .renamed once
  | false =>
    refine (Handles.hget_name new).next (fun _ => .refused _ (noted once)) ?_
    rintro owner F₁ ⟨rfl, leads⟩
    by_cases own : owner = some id.text
    · rw [if_neg (not_not_intro own)]
      -- The new name already leads to the segment, so that claiming it would change nothing.
      have known : F₁.names new = true := leads.trans (decide_eq_true own)
      have same (n : String) : F₁.names n = (decide (n = new) || F₁.names n) := by
        by_cases here : n = new
        · rw [here, known, Bool.or_true]
        · rw [decide_eq_false here, Bool.false_or]
      have released : (fun n => !decide (n = old) && F₁.names n) =
          fun n => !decide (n = old) && (decide (n = new) || F₁.names n) :=
        funext fun n => congrArg _ (same n)
      refine (Handles.hdel_name led).last (fun _ => .refused _ (noted (noted once))) ?_
      rintro _ F₂ rfl
      rw [released]
      exact .renamed (noted once)
    · rw [if_pos own]
      have thrown {mid : List Note} (later : notes <+: mid) :
          Handles l id (throw (.duplicateName new) : Operation PUnit) F₁ mid fun o F' notes' =>
            o = .error (.duplicateName new) ∧ F' = F₁ ∧ notes <+: notes' := .throw ⟨rfl, rfl, later⟩
      refine (thrown (noted once)).bind ?_ ?_
      · rintro e F' notes' ⟨_, rfl, later⟩
        exact .refused e later
      · rintro _ _ _ ⟨failed, _⟩
        cases failed

/-- An update keeps the name of what is stored, whether it stops or not, unless it loses a record behind a name that
it gave up. -/
theorem updateSegment_handles (sound : F.Sound known (NoneStranded l notes)) (brought : known g) :
    Handles l g.id (l.updateSegment g) F notes fun _ F' notes' =>
      RecordsFollow Note.releases notes' → F'.Sound known (NoneStranded l notes') := by
  cases sound with
  | absent gone unnamed =>
    refine (updateSegment_handles_absent gone).mono ?_
    rintro _ F notes' ⟨rfl, later⟩ _
    exact File.Sound.later (.absent gone unnamed) later
  | stored old known' record named only =>
    have sound : F.Sound known (NoneStranded l notes) := .stored old known' record named only
    refine segmentRecord_handles.bind (fun e F' notes' failed _ => failed.1 ▸ sound.later failed.2.1) ?_
    rintro found F mid ⟨rfl, later, recalled⟩
    cases found with
    | none => exact .throw fun _ => sound.later later
    | some r =>
      have name : r.name = old.name := (recalled r rfl).2 old record
      dsimp only
      rw [name]
      by_cases same : old.name = g.name
      · rw [if_neg (not_not_intro same)]
        refine (Handles.set _).last (fun _ _ => sound.later (noted later)) ?_
        rintro _ F₁ rfl _
        refine .stored g brought rfl (same ▸ named) fun none n leads => ?_
        exact (only (none.before (noted later)) n leads).trans same
      · rw [if_pos same]
        refine (rename_handles named).bind (fun e F' notes' ends _ => ?_) fun _ F' notes' ends => ?_
        · cases ends with
          | refused _ more => exact sound.later (later.trans more)
          | stopped _ more stranded =>
            have still : (decide (old.name = g.name) || F.names old.name) = true := by rw [named, Bool.or_true]
            exact .stored old known' record still fun none => absurd none stranded
        · cases ends with
          | renamed more =>
            refine (Handles.set _).last (fun _ follow => absurd follow (not_recordsFollow rfl)) ?_
            rintro _ F₁ rfl _
            refine .stored g brought rfl (by simp [Ne.symm same]) fun none n leads => ?_
            have earlier : NoneStranded l notes := none.before (noted (noted (later.trans more)))
            rw [Bool.and_eq_true, Bool.not_eq_true', decide_eq_false_iff_not, Bool.or_eq_true, decide_eq_true_eq] at leads
            exact leads.2.resolve_right fun led => leads.1 (only earlier n led)

/-- A call that writes the size of a segment leaves the rest alone. -/
theorem setAudienceSize_handles (size : Int64) :
    Handles l id (l.setAudienceSize id size) F notes fun _ F' notes' =>
      (F' = F ∨ F' = { F with sized := true }) ∧ notes <+: notes' := by
  refine (Handles.setIfLive size).next (fun _ => ⟨.inl rfl, noted List.prefix_rfl⟩) fun written F' reached => ?_
  cases written with
  | true => exact .pure ⟨reached, noted List.prefix_rfl⟩
  | false => exact .throw ⟨reached, noted List.prefix_rfl⟩

theorem incrementAudienceSize_handles (delta : Int64) :
    Handles l id (l.incrementAudienceSize id delta) F notes fun _ F' notes' =>
      (F' = F ∨ F' = { F with sized := true }) ∧ notes <+: notes' := by
  refine (Handles.incrementIfLive _).next (fun _ => ⟨.inl rfl, noted List.prefix_rfl⟩) fun size F' reached => ?_
  cases size with
  | some size => exact .pure ⟨reached, noted List.prefix_rfl⟩
  | none => exact .throw ⟨reached, noted List.prefix_rfl⟩

end Redis

end CustomerSegments
