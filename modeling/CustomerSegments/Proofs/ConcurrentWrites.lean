import CustomerSegments.Proofs.SegmentWrites

namespace CustomerSegments

namespace Turns

variable {R : Type} {A : R → Type} {σ α : Type}

/-- A task has a request to make. -/
def Waits (t : Turns R A σ α) (i : Nat) : Prop :=
  ∃ e next, t.tasks[i]? = some (.ask e next)

/-- A task has taken a turn and has not come to its end. -/
def Underway (schedule : List Nat) (t : Turns R A σ α) (i : Nat) : Prop :=
  i ∈ schedule ∧ t.Waits i

variable {backend : (r : R) → Instant → σ → A r × σ} {t : Turns R A σ α} {before : List Nat} {i j : Nat}

theorem tasks_advance (other : j ≠ i) : (t.advance backend i).tasks[j]? = t.tasks[j]? := by
  rcases advance_cases backend t i with ⟨e, next, asks⟩ | ⟨_, same⟩
  · rw [advance_of_ask asks, List.getElem?_set_ne (Ne.symm other)]
  · rw [same]

theorem underway_advance (other : j ≠ i) : (t.advance backend i).Underway (before ++ [i]) j ↔ t.Underway before j := by
  rw [Underway, Underway, Waits, Waits, tasks_advance other, List.mem_append, List.mem_singleton, or_iff_left other]

theorem not_waits_of_done {a : α} (done : t.tasks[i]? = some (.done a)) : ¬ t.Waits i := by
  rintro ⟨_, _, asks⟩
  rw [done] at asks
  cases asks

/-- A task that has no more requests to make has come to its end. -/
theorem exists_done (there : i < t.tasks.length) (quiet : ¬ t.Waits i) : ∃ a, t.tasks[i]? = some (.done a) := by
  cases found : t.tasks[i] with
  | done a => exact ⟨a, List.getElem?_eq_some_iff.2 ⟨there, found⟩⟩
  | ask e next => exact absurd ⟨e, next, List.getElem?_eq_some_iff.2 ⟨there, found⟩⟩ quiet

/-- A task that has come to its end stays there. -/
theorem done_after {a : α} (done : t.tasks[i]? = some (.done a)) (schedule : List Nat) :
    (after backend schedule t).tasks[i]? = some (.done a) := by
  induction schedule using List.reverseRecOn with
  | nil => exact done
  | append_singleton schedule j ih =>
    rw [after_concat]
    by_cases own : i = j
    · subst own
      rcases advance_cases backend (after backend schedule t) i with asks | ⟨_, same⟩
      · exact absurd asks (not_waits_of_done ih)
      · rw [same, ih]
    · rw [tasks_advance own, ih]

theorem Waits.lt_length (waits : t.Waits i) : i < t.tasks.length := by
  obtain ⟨_, _, asks⟩ := waits
  exact (List.getElem?_eq_some_iff.1 asks).1

end Turns

namespace Redis

open Turns

/-- Calls that clients make at the same time, with their outcomes at the end. -/
abbrev Writes := Turns Command Command.Reply Recorded ((c : SegmentWrite) × Except Error c.call.Result)

/-- A call as a task over a server. -/
def Layout.write (l : Layout) (c : SegmentWrite) : Action ((c : SegmentWrite) × Except Error c.call.Result) :=
  (fun o => ⟨c, o⟩) <$> (l.operation c.call).run

/-- Calls before the first turn. -/
def Layout.writes (l : Layout) (calls : List SegmentWrite) (w : World Recorded) : Writes :=
  ⟨calls.map l.write, w⟩

/-- Calls on one segment do not overlap: none of them takes a turn while another one is under way. -/
def Orderly (l : Layout) (calls : List SegmentWrite) (w : World Recorded) (schedule : List Nat) : Prop :=
  ∀ before i, before ++ [i] <+: schedule → (Turns.after recording before (l.writes calls w)).Waits i →
    ∀ j, j ≠ i → (Turns.after recording before (l.writes calls w)).Underway before j →
      ∀ c c', calls[i]? = some c → calls[j]? = some c' → c.subject ≠ c'.subject

/-- No two calls bring in the same segment. -/
def Fresh (calls : List SegmentWrite) : Prop :=
  calls.Pairwise fun c c' => ∀ id, c.inserted? = some id → c'.inserted? ≠ some id

theorem Fresh.unique {calls : List SegmentWrite} {i j : Nat} {c c' : SegmentWrite} {id : Uuid} (fresh : Fresh calls)
    (there : calls[i]? = some c) (there' : calls[j]? = some c') (inserted : c.inserted? = some id)
    (inserted' : c'.inserted? = some id) : i = j := by
  obtain ⟨bound, rfl⟩ := List.getElem?_eq_some_iff.1 there
  obtain ⟨bound', rfl⟩ := List.getElem?_eq_some_iff.1 there'
  rcases Nat.lt_trichotomy i j with before | same | after
  · exact absurd inserted' (List.pairwise_iff_getElem.1 fresh i j bound bound' before id inserted)
  · exact same
  · exact absurd inserted (List.pairwise_iff_getElem.1 fresh j i bound' bound after id inserted')

variable {l : Layout} {calls : List SegmentWrite} {before : List Nat} {t : Writes} {v v' : Nat → Option Segment} {i : Nat}
  {c : SegmentWrite} {id : Uuid}

/-- The segment that the call at a place is about. -/
def subjectAt (calls : List SegmentWrite) (i : Nat) : Uuid :=
  (calls[i]?).elim (.counting 0) (·.subject)

theorem subjectAt_eq (there : calls[i]? = some c) : subjectAt calls i = c.subject := by
  rw [subjectAt, there]
  rfl

/-- A call has deleted a segment. -/
def Gone (t : Writes) (id : Uuid) : Prop :=
  ∃ (i : Nat) (a : (c : SegmentWrite) × Except Error c.call.Result),
    t.tasks[i]? = some (.done a) ∧ a.1.deleted? a.2 = some id

/-- A segment is still to come, or was deleted. -/
def Vacant (calls : List SegmentWrite) (before : List Nat) (t : Writes) (id : Uuid) : Prop :=
  (∃ i c, i ∉ before ∧ calls[i]? = some c ∧ c.inserted? = some id) ∨ Gone t id

/-- What is deleted after a turn was so before, or the turn was the last one of its deletion. -/
theorem Gone.of_advance (gone : Gone (t.advance recording i) id) :
    Gone t id ∨ ∃ a : (c : SegmentWrite) × Except Error c.call.Result,
      (t.advance recording i).tasks[i]? = some (.done a) ∧ a.1.deleted? a.2 = some id := by
  obtain ⟨j, a, done, deleted⟩ := gone
  by_cases own : j = i
  · exact .inr ⟨a, own ▸ done, deleted⟩
  · exact .inl ⟨j, a, tasks_advance own ▸ done, deleted⟩

theorem Vacant.of_advance (vacant : Vacant calls (before ++ [i]) (t.advance recording i) id) :
    Vacant calls before t id ∨ ∃ a : (c : SegmentWrite) × Except Error c.call.Result,
      (t.advance recording i).tasks[i]? = some (.done a) ∧ a.1.deleted? a.2 = some id := by
  rcases vacant with ⟨j, c, later, call, inserted⟩ | gone
  · exact .inl (.inl ⟨j, c, fun early => later (List.mem_append_left _ early), call, inserted⟩)
  · exact gone.of_advance.imp_left .inr

/-- How the call at a place ends. -/
def EndsAt (l : Layout) (calls : List SegmentWrite) (i : Nat) (a : (c : SegmentWrite) × Except Error c.call.Result)
    (g : Option Segment) (s : Server) : Prop :=
  calls[i]? = some a.1 ∧ Leaves a.1 g a.2 (s.file l a.1.subject)

/-- Some of the calls keep to their segments. -/
abbrev KeepTo (l : Layout) (calls : List SegmentWrite) (on : Nat → Prop) (t : Writes) (v : Nat → Option Segment) : Prop :=
  t.Secured (serving fun _ => True) (fun i => minding l (subjectAt calls i)) (EndsAt l calls) (·.state.state) on v

/-- What holds between two turns of calls that do not overlap on one segment. -/
structure Tended (l : Layout) (calls : List SegmentWrite) (before : List Nat) (t : Writes) (v : Nat → Option Segment) :
    Prop where
  long : t.tasks.length = calls.length
  tidy : t.world.state.state.Tidy l
  unbegun : ∀ {i}, i ∉ before → t.tasks[i]? = (calls[i]?).map l.write
  kept : KeepTo l calls (t.Underway before) t v
  absent : ∀ {i}, t.Underway before i → Vacant calls before t (subjectAt calls i) → v i = none
  whole : ∀ id, (∀ i, t.Underway before i → subjectAt calls i ≠ id) →
    ∃ g, t.world.state.state.file l id = .of g ∧ (∀ r, g = some r → r.id = id) ∧
      (Vacant calls before t id → g = none)
  gone : ∀ {id i c}, Gone t id → calls[i]? = some c → c.inserted? = some id → i ∈ before ∧ ¬ t.Underway before i

theorem write_secures {g : Option Segment} {s : Server} (there : calls[i]? = some c) (stored : s.file l c.subject = .of g)
    (own : ∀ r, g = some r → r.id = c.subject) (new : c.inserted? ≠ none → g = none) :
    (l.write c).Secures (serving fun _ => True) (minding l c.subject) (EndsAt l calls i) g s := by
  rw [Layout.write, map_eq_pure_bind]
  refine Program.Secures.bind ((write_transforms c own new g s stored).stable.mono ?_)
  intro o v s' ends
  refine Program.Secures.pure fun s'' others => ?_
  obtain ⟨rfl, left⟩ := ends s'' others
  exact ⟨there, left⟩

namespace Tended

theorem exists_call (tended : Tended l calls before t v) (turn : t.Waits i) : ∃ c, calls[i]? = some c := by
  have bound := turn.lt_length
  rw [tended.long] at bound
  exact ⟨calls[i], List.getElem?_eq_getElem bound⟩

/-- A call that takes a turn has its segment to itself, and knows what was stored for it at its start. -/
theorem takesTurn (tended : Tended l calls before t v) (turn : t.Waits i) (there : calls[i]? = some c)
    (apart : ∀ j, j ≠ i → t.Underway before j → subjectAt calls j ≠ c.subject) :
    ∃ v, KeepTo l calls (fun j => t.Underway before j ∨ j = i) t v ∧
      ∀ j, t.Underway before j ∨ j = i → Vacant calls before t (subjectAt calls j) → v j = none := by
  by_cases begun : i ∈ before
  · refine ⟨v, fun j on => tended.kept j ?_, fun j on => tended.absent ?_⟩
    · exact on.elim id fun same => same ▸ ⟨begun, turn⟩
    · exact on.elim id fun same => same ▸ ⟨begun, turn⟩
  · have alone (j : Nat) (underway : t.Underway before j) : j ≠ i := fun same => begun (same ▸ underway.1)
    obtain ⟨g, stored, own, vacant⟩ := tended.whole c.subject fun j underway => apart j (alone j underway) underway
    have subject := subjectAt_eq there
    refine ⟨Function.update v i g, fun j on task found => ?_, fun j on vacant' => ?_⟩
    · rcases on with underway | rfl
      · rw [Function.update_of_ne (alone j underway)]
        exact tended.kept j underway task found
      · rw [Function.update_self]
        rw [tended.unbegun begun, there] at found
        cases found
        dsimp only
        rw [subject]
        refine write_secures there stored own fun inserted => vacant (.inl ?_)
        obtain ⟨id, inserted⟩ := Option.ne_none_iff_exists'.1 inserted
        exact ⟨j, c, begun, there, inserted.trans (congrArg some (SegmentWrite.subject_of_inserted inserted).symm)⟩
    · rcases on with underway | rfl
      · rw [Function.update_of_ne (alone j underway)]
        exact tended.absent underway vacant'
      · rw [Function.update_self]
        exact vacant (subject ▸ vacant')

/-- A segment that a call has brought in is neither to come nor deleted. -/
theorem not_vacant_of_inserted {a : (c : SegmentWrite) × Except Error c.call.Result} (tended : Tended l calls before t v)
    (fresh : Fresh calls) (turn : t.Waits i) (there : calls[i]? = some a.1) (inserted : a.1.inserted? = some id)
    (done : (t.advance recording i).tasks[i]? = some (.done a)) :
    ¬ Vacant calls (before ++ [i]) (t.advance recording i) id := by
  rintro (⟨j, c, later, call, again⟩ | gone)
  · exact later (fresh.unique there call inserted again ▸ List.mem_append_right _ List.mem_cons_self)
  · rcases gone.of_advance with known | ⟨a', done', deleted⟩
    · obtain ⟨early, quiet⟩ := tended.gone known there inserted
      exact quiet ⟨early, turn⟩
    · rw [done] at done'
      cases done'
      rw [(SegmentWrite.subject_of_deleted deleted).2] at inserted
      cases inserted

/-- What is known behind a turn of a call that had its segment to itself: the calls that were under way still keep to
their segments, and what was stored for the others is still there. -/
structure Turned (l : Layout) (calls : List SegmentWrite) (before : List Nat) (t : Writes) (v : Nat → Option Segment)
    (i : Nat) (c : SegmentWrite) : Prop where
  there : calls[i]? = some c
  turn : t.Waits i
  apart : ∀ j, j ≠ i → t.Underway before j → subjectAt calls j ≠ c.subject
  kept : KeepTo l calls (fun j => t.Underway before j ∨ j = i) (t.advance recording i) v
  absent : ∀ j, t.Underway before j ∨ j = i → Vacant calls before t (subjectAt calls j) → v j = none
  edit : Edit l c.subject t.world.state.state (t.advance recording i).world.state.state

theorem turned (tended : Tended l calls before t v) (turn : t.Waits i)
    (apart : ∀ j, j ≠ i → t.Underway before j →
      ∀ c c', calls[i]? = some c → calls[j]? = some c' → c.subject ≠ c'.subject)
    (accepted : Recorded.Accepted (t.advance recording i).world.state) : ∃ v c, Turned l calls before t v i c := by
  obtain ⟨c, there⟩ := tended.exists_call turn
  have subject := subjectAt_eq there
  have apart (j : Nat) (other : j ≠ i) (underway : t.Underway before j) : subjectAt calls j ≠ c.subject := by
    obtain ⟨c', there'⟩ := tended.exists_call underway.2
    rw [subjectAt_eq there']
    exact (apart j other underway c c' there there').symm
  obtain ⟨v, kept, absent⟩ := tended.takesTurn turn there apart
  obtain ⟨value, ⟨same, edit⟩, kept'⟩ := kept.advance (.inr rfl)
    (fun e next turn => answers_of_accepted (fun _ => trivial) accepted turn) fun j on other v s v' s' step => by
      have differ := on.elim (apart j other) fun same => absurd same other
      rw [← subject] at differ
      exact step.2.others _ differ
  rw [same, Function.update_eq_self] at kept'
  exact ⟨v, c, there, turn, apart, kept', absent, subject ▸ edit⟩

namespace Turned

variable {a : (c : SegmentWrite) × Except Error c.call.Result}

/-- The other calls are where they were. -/
theorem under {j : Nat} (now : (t.advance recording i).Underway (before ++ [i]) j) : t.Underway before j ∨ j = i := by
  by_cases own : j = i
  · exact .inr own
  · exact .inl ((underway_advance own).1 now)

/-- The call that took the turn may have ended with it. -/
theorem ended (turned : Turned l calls before t v i c) (done : (t.advance recording i).tasks[i]? = some (.done a)) :
    a.1 = c ∧ Leaves a.1 (v i) a.2 ((t.advance recording i).world.state.state.file l a.1.subject) := by
  obtain ⟨call, leaves⟩ := (turned.kept i (.inr rfl) _ done).ended
  exact ⟨Option.some.inj (call.symm.trans turned.there), leaves⟩

theorem absent_after (turned : Turned l calls before t v i c) {j : Nat}
    (now : (t.advance recording i).Underway (before ++ [i]) j)
    (vacant : Vacant calls (before ++ [i]) (t.advance recording i) (subjectAt calls j)) : v j = none := by
  rcases vacant.of_advance with known | ⟨a, done, deleted⟩
  · exact turned.absent j (under now) known
  · obtain ⟨rfl, _⟩ := turned.ended done
    by_cases own : j = i
    · subst own
      exact absurd now.2 (not_waits_of_done done)
    · have subject := (SegmentWrite.subject_of_deleted deleted).1.symm
      exact absurd subject (turned.apart j own ((underway_advance own).1 now))

/-- What is stored for the segment of a call that has ended with the turn. -/
theorem whole_own (turned : Turned l calls before t v i c) (tended : Tended l calls before t v') (fresh : Fresh calls)
    (alone : ∀ j, (t.advance recording i).Underway (before ++ [i]) j → subjectAt calls j ≠ c.subject) :
    ∃ g, (t.advance recording i).world.state.state.file l c.subject = .of g ∧ (∀ r, g = some r → r.id = c.subject) ∧
      (Vacant calls (before ++ [i]) (t.advance recording i) c.subject → g = none) := by
  have subject := subjectAt_eq turned.there
  obtain ⟨a, done⟩ := exists_done (length_advance.symm ▸ turned.turn.lt_length) fun waits =>
    alone i ⟨List.mem_append_right _ List.mem_cons_self, waits⟩ subject
  obtain ⟨rfl, g, stored, own, kept, gone⟩ := turned.ended done
  refine ⟨g, stored, own, fun vacant => ?_⟩
  rcases vacant.of_advance with known | ⟨a', done', deleted⟩
  · refine kept (turned.absent i (.inr rfl) (subject ▸ known)) (Option.eq_none_iff_forall_ne_some.2 fun id inserted => ?_)
    rw [SegmentWrite.subject_of_inserted inserted] at vacant
    exact tended.not_vacant_of_inserted fresh turned.turn turned.there inserted done vacant
  · rw [done] at done'
    cases done'
    exact (gone _ deleted).2

theorem whole_other (turned : Turned l calls before t v i c) (tended : Tended l calls before t v') (other : id ≠ c.subject)
    (alone : ∀ j, (t.advance recording i).Underway (before ++ [i]) j → subjectAt calls j ≠ id) :
    ∃ g, (t.advance recording i).world.state.state.file l id = .of g ∧ (∀ r, g = some r → r.id = id) ∧
      (Vacant calls (before ++ [i]) (t.advance recording i) id → g = none) := by
  obtain ⟨g, stored, own, absent⟩ := tended.whole id fun j now at_ => by
    have apart : j ≠ i := fun same => other (by rw [← at_, same, subjectAt_eq turned.there])
    exact alone j ((underway_advance apart).2 now) at_
  refine ⟨g, (turned.edit.others id other).trans stored, own, fun vacant => ?_⟩
  rcases vacant.of_advance with known | ⟨a, done, deleted⟩
  · exact absent known
  · obtain ⟨rfl, _⟩ := turned.ended done
    exact absurd (SegmentWrite.subject_of_deleted deleted).1.symm other

theorem gone_after (turned : Turned l calls before t v i c) (tended : Tended l calls before t v') {j : Nat}
    {c' : SegmentWrite} (gone : Gone (t.advance recording i) id) (call : calls[j]? = some c')
    (inserted : c'.inserted? = some id) :
    j ∈ before ++ [i] ∧ ¬ (t.advance recording i).Underway (before ++ [i]) j := by
  rcases gone.of_advance with known | ⟨a, done, deleted⟩
  · obtain ⟨early, quiet⟩ := tended.gone known call inserted
    have other : j ≠ i := fun same => quiet ⟨early, same ▸ turned.turn⟩
    exact ⟨List.mem_append_left _ early, fun now => quiet ((underway_advance other).1 now)⟩
  · obtain ⟨rfl, _, _, _, _, live⟩ := turned.ended done
    have other : j ≠ i := by
      rintro rfl
      rw [Option.some.inj (call.symm.trans turned.there), (SegmentWrite.subject_of_deleted deleted).2] at inserted
      cases inserted
    have subject : subjectAt calls j = a.1.subject := by
      rw [subjectAt_eq call, SegmentWrite.subject_of_inserted inserted, (SegmentWrite.subject_of_deleted deleted).1]
    refine ⟨List.mem_append_left _ (Classical.byContradiction fun later => ?_), fun now => ?_⟩
    · have none := turned.absent i (.inr rfl) (.inl ⟨j, c', later, call, by
        rw [subjectAt_eq turned.there, (SegmentWrite.subject_of_deleted deleted).1, inserted]⟩)
      rw [none] at live
      cases (live _ deleted).1
    · exact turned.apart j other ((underway_advance other).1 now) subject

end Turned

/-- A turn of a call that others do not overlap with keeps all this. -/
theorem advance (tended : Tended l calls before t v) (fresh : Fresh calls) (turn : t.Waits i)
    (apart : ∀ j, j ≠ i → t.Underway before j →
      ∀ c c', calls[i]? = some c → calls[j]? = some c' → c.subject ≠ c'.subject)
    (accepted : Recorded.Accepted (t.advance recording i).world.state) :
    ∃ v, Tended l calls (before ++ [i]) (t.advance recording i) v := by
  obtain ⟨v, c, turned⟩ := tended.turned turn apart accepted
  refine ⟨v, ?_, turned.edit.tidy tended.tidy, ?_, fun j now => turned.kept j (Turned.under now), turned.absent_after, ?_,
    turned.gone_after tended⟩
  · rw [length_advance, tended.long]
  · intro j later
    rw [List.mem_append, List.mem_singleton, not_or] at later
    rw [tasks_advance later.2, tended.unbegun later.1]
  · intro id alone
    by_cases own : id = c.subject
    · subst own
      exact turned.whole_own tended fresh alone
    · exact turned.whole_other tended own alone

/-- A turn of a call that has ended changes nothing. -/
theorem idle (tended : Tended l calls before t v) (quiet : ¬ t.Waits i) :
    Tended l calls (before ++ [i]) (t.advance recording i) v := by
  have same : t.advance recording i = t := by
    rcases advance_cases recording t i with asks | ⟨_, same⟩
    · exact absurd asks quiet
    · exact same
  rw [same]
  have underway {j : Nat} : t.Underway (before ++ [i]) j ↔ t.Underway before j := by
    rw [Underway, Underway, List.mem_append, List.mem_singleton]
    refine and_congr_left fun waits => or_iff_left ?_
    rintro rfl
    exact quiet waits
  have vacant {id : Uuid} (now : Vacant calls (before ++ [i]) t id) : Vacant calls before t id :=
    now.imp_left fun ⟨j, c, later, call⟩ => ⟨j, c, fun early => later (List.mem_append_left _ early), call⟩
  refine ⟨tended.long, tended.tidy, fun later => tended.unbegun fun early => later (List.mem_append_left _ early),
    fun j now => tended.kept j (underway.1 now), fun now vac => tended.absent (underway.1 now) (vacant vac), ?_, ?_⟩
  · intro id alone
    obtain ⟨g, stored, own, absent⟩ := tended.whole id fun j now => alone j (underway.2 now)
    exact ⟨g, stored, own, fun vac => absent (vacant vac)⟩
  · intro id j c gone call inserted
    obtain ⟨early, ended⟩ := tended.gone gone call inserted
    exact ⟨List.mem_append_left _ early, fun now => ended (underway.1 now)⟩

end Tended

/-- Every call starts with a command. -/
theorem exists_write_eq (l : Layout) (c : SegmentWrite) : ∃ e next, l.write c = .ask e next := by
  cases c <;> exact ⟨_, _, rfl⟩

theorem not_gone_writes {w : World Recorded} : ¬ Gone (l.writes calls w) id := by
  rintro ⟨i, a, done, _⟩
  change (calls.map l.write)[i]? = _ at done
  obtain ⟨c, _, ended⟩ := Option.map_eq_some_iff.1 (List.getElem?_map.symm.trans done)
  obtain ⟨e, next, asks⟩ := exists_write_eq l c
  rw [asks] at ended
  cases ended

theorem tended_writes {live : Uuid → Option Segment} {w : World Recorded} (coherent : Coherent l w.state.state live)
    (unknown : ∀ c ∈ calls, ∀ id, c.inserted? = some id → live id = none) :
    Tended l calls [] (l.writes calls w) fun _ => none where
  long := List.length_map _
  tidy := coherent.tidy
  unbegun _ := List.getElem?_map
  kept _ on := absurd on.1 List.not_mem_nil
  absent on := absurd on.1 List.not_mem_nil
  whole id _ := by
    refine ⟨live id, coherent.file id, fun r => coherent.own, ?_⟩
    rintro (⟨i, c, _, call, inserted⟩ | gone)
    · exact unknown c (List.mem_of_getElem? call) id inserted
    · exact absurd gone not_gone_writes
  gone gone := absurd gone not_gone_writes

/-- After every turn of calls that do not overlap on one segment, while no command is refused. -/
theorem tended_after {live : Uuid → Option Segment} {w : World Recorded} (coherent : Coherent l w.state.state live)
    (unknown : ∀ c ∈ calls, ∀ id, c.inserted? = some id → live id = none) (fresh : Fresh calls) (schedule : List Nat)
    (orderly : Orderly l calls w schedule)
    (accepted : Recorded.Accepted (Turns.after recording schedule (l.writes calls w)).world.state) :
    ∃ v, Tended l calls schedule (Turns.after recording schedule (l.writes calls w)) v := by
  induction schedule using List.reverseRecOn with
  | nil => exact ⟨_, tended_writes coherent unknown⟩
  | append_singleton schedule i ih =>
    rw [after_concat] at accepted ⊢
    have earlier : Orderly l calls w schedule := fun before j front =>
      orderly before j (front.trans (List.prefix_append _ _))
    obtain ⟨v, tended⟩ := ih earlier accepted.of_advance
    by_cases turn : (Turns.after recording schedule (l.writes calls w)).Waits i
    · exact tended.advance fresh turn (orderly schedule i List.prefix_rfl turn) accepted
    · exact ⟨v, tended.idle turn⟩

/-- However the commands of calls that insert, update and delete segments are interleaved, as long as no command is
refused and no two calls on one segment overlap: whenever no call is under way, the records, the set of ids, the sizes
and the names are those of the same segments, no two of them with one name, and no deleted segment has left a
record. -/
theorem coherent_after_writes {l : Layout} {calls : List SegmentWrite} {w : World Recorded} {schedule : List Nat}
    {live : Uuid → Option Segment} (coherent : Coherent l w.state.state live) (fresh : Fresh calls)
    (unknown : ∀ c ∈ calls, ∀ id, c.inserted? = some id → live id = none) (orderly : Orderly l calls w schedule)
    (accepted : (Turns.after recording schedule (l.writes calls w)).world.state.Accepted)
    (quiet : ∀ i, ¬ (Turns.after recording schedule (l.writes calls w)).Underway schedule i) :
    ∃ live', Coherent l (Turns.after recording schedule (l.writes calls w)).world.state.state live' ∧
      (∀ id id' g g', live' id = some g → live' id' = some g' → g.name = g'.name → id = id') ∧
      ∀ (i : Nat) (a : (c : SegmentWrite) × Except Error c.call.Result) (id : Uuid),
        (Turns.after recording schedule (l.writes calls w)).tasks[i]? = some (.done a) → a.1.deleted? a.2 = some id →
          live' id = none := by
  obtain ⟨v, tended⟩ := tended_after coherent unknown fresh schedule orderly accepted
  have whole (id : Uuid) := tended.whole id fun i underway => absurd underway (quiet i)
  choose live' files own vacant using whole
  have coherent' := @Coherent.of_files l _ live' tended.tidy (fun {id g} found => own id g found) files
  refine ⟨live', coherent', fun id id' g g' found found' same => coherent'.name_unique found found' same, ?_⟩
  intro i a id done deleted
  exact vacant id (.inr ⟨i, a, done, deleted⟩)

/-- A segment without rules. -/
def bare (id : Uuid) (name : String) : Segment :=
  ⟨id, name, none, [], 0, true, .epoch, .epoch, "ops"⟩

/-- A server with nothing in it. -/
def nothing : World Recorded :=
  .start ⟨.empty, []⟩ (fun _ => .epoch) Uuid.counting

theorem coherent_nothing (l : Layout) : Coherent l nothing.state.state fun _ => none where
  own := nofun
  record _ := rfl
  listed := ⟨.empty, rfl, by simp [Table.contains]⟩
  sized := ⟨.empty, rfl, by simp [Table.contains]⟩
  named := ⟨.empty, rfl, by simp⟩

/-- A segment is created and then renamed, and another one takes the name that it gives up. -/
def handover : List SegmentWrite :=
  [.insert (bare (.counting 1) "Regulars"), .update (bare (.counting 1) "Lapsed"), .insert (bare (.counting 2) "Regulars")]

/-- The other segment is written while the renaming is under way. -/
def handoverTurns : List Nat :=
  [0, 0, 0, 0, 1, 1, 1, 2, 2, 1, 2, 2]

/-- The calls after these turns. -/
def handedOver : Writes :=
  Turns.after recording handoverTurns (Layout.writes ⟨"p", 1⟩ handover nothing)

theorem orderly_handover : Orderly ⟨"p", 1⟩ handover nothing handoverTurns := by
  intro before i turn waits j other underway c c' there there'
  have now : handoverTurns[before.length]? = some i ∧ before = handoverTurns.take before.length := by
    obtain ⟨rest, same⟩ := turn
    rw [← same]
    simp
  obtain ⟨now, earlier⟩ := now
  have within : before.length < 12 := (List.getElem?_eq_some_iff.1 now).1
  have few : i < 3 := (List.getElem?_eq_some_iff.1 there).1
  have few' : j < 3 := (List.getElem?_eq_some_iff.1 there').1
  have places : (i = 0 ∧ j = 1) ∨ (i = 1 ∧ j = 0) ∨ c.subject ≠ c'.subject := by
    rcases (by omega : i = 0 ∨ i = 1 ∨ i = 2) with rfl | rfl | rfl <;>
      rcases (by omega : j = 0 ∨ j = 1 ∨ j = 2) with rfl | rfl | rfl <;> cases there <;> cases there' <;>
        first | exact absurd rfl other | decide
  rcases places with ⟨rfl, rfl⟩ | ⟨rfl, rfl⟩ | apart
  · have unbegun : ∀ n < 12, handoverTurns[n]? = some 0 → 1 ∉ handoverTurns.take n := by decide
    exact absurd (earlier ▸ underway.1) (unbegun _ within now)
  · have created : ∀ n < 12, handoverTurns[n]? = some 1 → [0, 0, 0, 0] <+: handoverTurns.take n := by decide
    obtain ⟨rest, same⟩ := created _ within now
    rw [earlier, ← same, after, List.foldl_append] at underway
    exact absurd underway.2 (not_waits_of_done (done_after rfl rest))
  · exact apart

theorem coherent_after_handover :
    handedOver.world.state.Accepted ∧ (∀ task ∈ handedOver.tasks, task.result?.isSome) ∧
      ∃ live', Coherent ⟨"p", 1⟩ handedOver.world.state.state live' := by
  have run : handedOver.world.state.Accepted ∧ ∀ task ∈ handedOver.tasks, task.result?.isSome := by decide +kernel
  have quiet (i : Nat) : ¬ handedOver.Underway handoverTurns i := by
    rintro ⟨_, e, next, asks⟩
    cases run.2 _ (List.mem_of_getElem? asks)
  have fresh : Fresh handover := by
    simp [Fresh, handover, SegmentWrite.inserted?]
    decide
  unfold handedOver at run quiet ⊢
  obtain ⟨live', coherent, _⟩ := @coherent_after_writes ⟨"p", 1⟩ handover nothing handoverTurns (fun _ => none)
    (coherent_nothing _) fresh (fun _ _ _ _ => rfl) orderly_handover run.1 quiet
  exact ⟨run.1, run.2, live', coherent⟩

end Redis

end CustomerSegments
