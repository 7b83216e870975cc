import CustomerSegments.Proofs.AudienceBalance
import CustomerSegments.Proofs.Conduct

namespace CustomerSegments

/-- What a set counts for in the size of a segment: one if it holds the segment. -/
def IdSet.share (s : IdSet) (segment : Uuid) : Int64 :=
  Int64.ofNat (s.toList.count segment)

/-- A store in memory and the calls made of it. -/
abbrev Journal := Noted Store.Call Store.Call.Answer Memory

namespace Customers

open Store

/-- How far an update of a customer has come: it has not read the customer yet, or read it with a set of
segments, or replaced that set by another one, with what it has yet to add to each size. -/
inductive Stage where
  | waiting
  | informed (before : IdSet)
  | counting (before after : IdSet) (due : Uuid → Int64)

/-- One request of an update of a customer. -/
inductive Progress (id : Uuid) : Stage → Journal → Stage → Journal → Prop
  | idle (stage : Stage) (s : Journal) : Progress id stage s stage s
  | read {s : Journal} {c : Customer} (live : s.state.customers.get? id = some c) :
      Progress id .waiting s (.informed c.segments) ⟨s.state, s.notes ++ [⟨.getCustomer id, .ok (some c)⟩]⟩
  | write {s : Journal} {before : IdSet} {c : Customer} (own : c.id = id) :
      Progress id (.informed before) s
        (.counting before c.segments fun segment => c.segments.share segment - before.share segment)
        ⟨{ s.state with customers := s.state.customers.insert id c }, s.notes ++ [⟨.updateCustomer c, .ok ()⟩]⟩
  | count {s : Journal} {before after : IdSet} {due : Uuid → Int64} (segment : Uuid) (delta : Int64)
      (a : (Call.incrementAudienceSize segment delta).Answer) :
      Progress id (.counting before after due) s
        (.counting before after fun other => if segment = other then due other - delta else due other)
        ⟨s.state.bump delta segment, s.notes ++ [⟨.incrementAudienceSize segment delta, a⟩]⟩

/-- A customer is stored under its own identifier. -/
def Present (id : Uuid) (s : Journal) : Prop :=
  ∃ c, s.state.customers.get? id = some c ∧ c.id = id

/-- An update counts on no more than that the customer stays there. -/
def editing (id : Uuid) : Conduct Journal Stage where
  rely s s' := Present id s → Present id s'
  step := Progress id
  rely_refl _ present := present
  rely_trans first rest present := rest (first present)
  idle := .idle

/-- A store in memory that notes its calls. -/
def journaling : Provision Call Call.Answer Journal where
  minted _ := True
  replies c s a s' := ∃ now, noting Memory.answer c now s = (a, s')

variable {id : Uuid} {stage : Stage} {s : Journal}

theorem Progress.present {stage' : Stage} {s' : Journal} (step : Progress id stage s stage' s') (present : Present id s) :
    Present id s' := by
  cases step with
  | idle | read _ => exact present
  | write own => exact ⟨_, by rw [Table.get?_insert, if_pos rfl], own⟩
  | count segment delta a =>
    rw [Present, Memory.bump, Memory.customers_revise]
    exact present

theorem secures_call {c : Call} {post : Except Error c.Result → Stage → Journal → Prop} (present : Present id s)
    (asks : ∀ s', Present id s' → ∀ now, ∃ stage', Progress id stage s' stage' (noting Memory.answer c now s').2 ∧
      ∀ t, Present id t → post (Memory.answer c now s'.state).1 stage' t) :
    Attempt.Secures journaling (editing id) (call c) post stage s := by
  refine Task.secures_backend fun s' others a s'' answered => ?_
  obtain ⟨now, answered⟩ := answered
  obtain ⟨stage', step, ends⟩ := asks s' (others present) now
  have reply : (Memory.answer c now s'.state).1 = a := congrArg Prod.fst answered
  have state : (noting Memory.answer c now s').2 = s'' := congrArg Prod.snd answered
  rw [state] at step
  rw [reply] at ends
  exact ⟨stage', step, fun t more => ends t (more (step.present (others present)))⟩

/-- A batch of additions takes what it adds from what is due. -/
theorem applyDelta_secures {before after : IdSet} {due : Uuid → Int64} (delta : Int64) (ids : List Uuid)
    (present : Present id s) :
    (Audience.applyDelta delta ids).Secures journaling (editing id)
      (fun _ stage s => stage = .counting before after (fun segment => due segment - Int64.ofNat (ids.count segment) * delta) ∧
        Present id s) (.counting before after due) s := by
  induction ids generalizing due s with
  | nil =>
    refine Program.Secures.pure fun s' others => ⟨?_, others present⟩
    congr 1
    funext segment
    simp
  | cons head rest ih =>
    have left : (fun segment => (if head = segment then due segment - delta else due segment) -
        Int64.ofNat (rest.count segment) * delta) =
          fun segment => due segment - Int64.ofNat ((head :: rest).count segment) * delta := by
      funext segment
      simp only [List.count_cons, beq_iff_eq]
      by_cases same : head = segment
      · simp only [if_pos same, Int64.ofNat_add]
        grind
      · simp only [if_neg same, Nat.add_zero]
    have others (metric : Metric) (first : DeltaOutcome) {t : Journal} (present : Present id t) :
        (do
          Task.tally metric 1
          return first ++ (← Audience.applyDelta delta rest) : Action DeltaOutcome).Secures journaling (editing id)
        (fun _ stage s => stage = .counting before after (fun segment =>
          due segment - Int64.ofNat ((head :: rest).count segment) * delta) ∧ Present id s)
        (.counting before after fun other => if head = other then due other - delta else due other) t := by
      refine Program.Secures.bind (Task.secures_tally _ _ fun t' more => Program.Secures.bind ?_)
      refine (ih (more present)).mono fun outcome stage s reached => Program.Secures.pure fun s' more => ?_
      exact ⟨reached.1.trans (congrArg _ left), more reached.2⟩
    refine Program.Secures.bind (secures_call present fun s' present' now => ?_)
    rw [noting, Memory.answer_incrementAudienceSize]
    refine ⟨_, .count head delta _, fun t present => ?_⟩
    dsimp only
    cases s'.state.segments.get? head with
    | none => exact others .deltasFailed ⟨[], [head]⟩ present
    | some g => exact others .deltasApplied ⟨[head], []⟩ present

/-- What an update of a customer has done when it returns: one that was refused has written nothing, one
that was accepted has written the set that it answers and has added to every size all that was due. -/
def Returned : Except Error CustomerChange → Stage → Prop
  | .ok change, stage => ∃ before, stage = .counting before change.customer.segments fun _ => 0
  | .error _, stage => ∀ before after due, stage ≠ .counting before after due

/-- Nothing is left due once the members gained and the members lost are counted. -/
theorem due_settled (before after : IdSet) :
    (fun segment => after.share segment - before.share segment -
        Int64.ofNat ((after.diff before).toList.count segment) * 1 -
          Int64.ofNat ((before.diff after).toList.count segment) * -1) = fun _ => 0 := by
  funext segment
  have difference := Service.count_difference before after segment
  simp only [IdSet.share]
  grind

theorem customerUpdated_secures (before after : IdSet) (present : Present id s) :
    (Audience.customerUpdated before after).Secures journaling (editing id)
      (fun _ stage _ => stage = .counting before after fun _ => 0)
      (.counting before after fun segment => after.share segment - before.share segment) s := by
  refine Program.Secures.bind ((applyDelta_secures 1 _ present).mono ?_)
  rintro gained _ s' ⟨rfl, present⟩
  refine Program.Secures.bind ((applyDelta_secures (-1) _ present).mono ?_)
  rintro lost _ s' ⟨rfl, present⟩
  exact Program.Secures.pure fun _ _ => congrArg _ (due_settled before after)

/-- The end of an update, from where the customer to write is made. -/
theorem write_secures {before : IdSet} {c : Customer} (own : c.id = id) (present : Present id s) :
    Attempt.Secures journaling (editing id)
      (do
        call (.updateCustomer c)
        if before ≠ c.segments then
          return ⟨c, ← Attempt.sure (Audience.customerUpdated before c.segments)⟩
        else return ⟨c, .empty⟩)
      (fun o stage _ => Returned o stage) (.informed before) s := by
  refine Attempt.secures_bind (secures_call present fun s' present now => ?_)
  obtain ⟨stored, live, _⟩ := present
  subst own
  rw [noting, Memory.answer_updateCustomer_of_live live]
  refine ⟨_, .write rfl, fun t present => ?_⟩
  dsimp only
  split
  · refine Attempt.secures_bind (Attempt.secures_sure ((customerUpdated_secures before c.segments present).mono ?_))
    rintro outcome _ s rfl
    exact Attempt.secures_pure fun _ _ => ⟨_, rfl⟩
  · next same =>
    have same : before = c.segments := Classical.not_not.1 same
    refine Attempt.secures_pure fun _ _ => ⟨before, congrArg _ (funext fun segment => ?_)⟩
    rw [same]
    exact Int64.sub_self _

theorem replace_secures {old : Customer} (patch : CustomerPatch) (name : String) (own : old.id = id)
    (present : Present id s) :
    Attempt.Secures journaling (editing id) (replace old patch name) (fun o stage _ => Returned o stage)
      (.informed old.segments) s :=
  Attempt.secures_bind (Attempt.secures_now fun _ _ others => write_secures own (others present))

theorem update_secures (patch : CustomerPatch) (present : Present id s) :
    Attempt.Secures journaling (editing id) (update id patch) (fun o stage _ => Returned o stage) .waiting s := by
  refine Attempt.secures_bind (Attempt.secures_bind (secures_call present fun s' present' now => ?_))
  obtain ⟨old, live, own⟩ := present'
  have found : (Memory.answer (.getCustomer id) now s'.state).1 = .ok (some old) := congrArg Except.ok live
  rw [found]
  refine ⟨.informed old.segments, ?_, fun t present => ?_⟩
  · rw [noting, show Memory.answer (.getCustomer id) now s'.state = (.ok (some old), s'.state) from Prod.ext found rfl]
    exact .read live
  · refine Attempt.secures_pure fun t' others => ?_
    have replaced (name : String) {t : Journal} (present : Present id t) :=
      replace_secures patch name own present
    cases patch.name with
    | none => exact replaced _ (others present)
    | some raw =>
      refine Attempt.secures_bind (Attempt.secures_settled fun t more => ?_)
      cases validName .customer raw with
      | ok name => exact replaced name (more (others present))
      | error e => exact fun _ _ => nofun

/-- What an update does to the record of its customer. -/
inductive Edit where
  | read
  | write (segments : IdSet)

/-- The edit that a call of an update is, unless it moves a size. -/
def Edit.of? : ((c : Call) × c.Answer) → Option Edit
  | ⟨.getCustomer _, _⟩ => some .read
  | ⟨.updateCustomer c, _⟩ => some (.write c.segments)
  | _ => none

/-- The edits among the calls of updates, the earliest first. -/
def Edit.ofNotes (notes : List ((c : Call) × c.Answer)) : List Edit :=
  notes.filterMap Edit.of?

/-- What two updates count too much for a segment of a customer with a set of segments before. If both have
read that set when the first one writes another, then that other set is counted, and nobody takes it back. -/
def stray (before : IdSet) (segment : Uuid) : List Edit → Int64
  | [.read, .read, .write first, .write _] => first.share segment - before.share segment
  | _ => 0

/-- How far two updates of a customer can have come, the one that was first to read or to write first, with
the edits so far and the set of segments that is stored. -/
inductive Story (before : IdSet) : Stage → Stage → List Edit → IdSet → Prop
  | none : Story before .waiting .waiting [] before
  | one : Story before (.informed before) .waiting [.read] before
  | both : Story before (.informed before) (.informed before) [.read, .read] before
  | alone (after : IdSet) (due : Uuid → Int64) :
      Story before (.counting before after due) .waiting [.read, .write after] after
  | later (after : IdSet) (due : Uuid → Int64) :
      Story before (.counting before after due) (.informed after) [.read, .write after, .read] after
  | stale (after : IdSet) (due : Uuid → Int64) :
      Story before (.counting before after due) (.informed before) [.read, .read, .write after] after
  | inTurn (mid after : IdSet) (due due' : Uuid → Int64) :
      Story before (.counting before mid due) (.counting mid after due')
        [.read, .write mid, .read, .write after] after
  | crossed (mid after : IdSet) (due due' : Uuid → Int64) :
      Story before (.counting before mid due) (.counting before after due')
        [.read, .read, .write mid, .write after] after

/-- What an update has added to the size of a segment so far. -/
def Stage.paid (segment : Uuid) : Stage → Int64
  | .counting before after due => after.share segment - before.share segment - due segment
  | _ => 0

/-- Two updates of a customer who was stored at first with a set of segments, each at its stage: what each
has added is in the sizes. -/
structure Balanced (m : Memory) (id : Uuid) (before : IdSet) (one other : Stage) (s : Journal) : Prop where
  story : ∃ c, s.state.customers.get? id = some c ∧ c.id = id ∧
    (Story before one other (Edit.ofNotes s.notes) c.segments ∨
      Story before other one (Edit.ofNotes s.notes) c.segments)
  sizes : ∀ segment g, m.segments.get? segment = some g → ∃ g', s.state.segments.get? segment = some g' ∧
    g'.audienceSize = g.audienceSize + (one.paid segment + other.paid segment)

variable {m : Memory} {before : IdSet} {one other : Stage}

theorem Balanced.symm (balanced : Balanced m id before one other s) : Balanced m id before other one s := by
  refine ⟨?_, fun segment g live => ?_⟩
  · obtain ⟨c, live, own, story⟩ := balanced.story
    exact ⟨c, live, own, story.symm⟩
  · rw [Int64.add_comm (other.paid segment)]
    exact balanced.sizes segment g live

theorem Edit.ofNotes_concat (notes : List ((c : Call) × c.Answer)) (note : (c : Call) × c.Answer) :
    Edit.ofNotes (notes ++ [note]) = Edit.ofNotes notes ++ (Edit.of? note).toList := by
  rw [ofNotes, List.filterMap_append, List.filterMap_cons]
  cases Edit.of? note <;> rfl

/-- One request of either update keeps the balance. -/
theorem Balanced.step {one' : Stage} {s' : Journal} (balanced : Balanced m id before one other s)
    (step : Progress id one s one' s') : Balanced m id before one' other s' := by
  obtain ⟨⟨c, live, own, story⟩, sizes⟩ := balanced
  cases step with
  | idle => exact ⟨⟨c, live, own, story⟩, sizes⟩
  | read found =>
    rw [live] at found
    obtain rfl := Option.some.inj found
    refine ⟨⟨c, live, own, ?_⟩, sizes⟩
    rw [Edit.ofNotes_concat]
    generalize Edit.ofNotes s.notes = edits at story
    generalize c.segments = stored at story
    rcases story with story | story <;> cases story
    · exact .inl .one
    · exact .inl .one
    · exact .inr .both
    · exact .inr (.later _ _)
  | @write _ read c' own' =>
    refine ⟨⟨c', by rw [Table.get?_insert, if_pos rfl], own', ?_⟩, fun segment g there => ?_⟩
    · rw [Edit.ofNotes_concat]
      generalize Edit.ofNotes s.notes = edits at story
      generalize c.segments = stored at story
      rcases story with story | story <;> cases story
      · exact .inl (.alone _ _)
      · exact .inl (.stale _ _)
      · exact .inl (.stale _ _)
      · exact .inr (.inTurn _ _ _ _)
      · exact .inr (.crossed _ _ _ _)
    · obtain ⟨g', there, size⟩ := sizes segment g there
      refine ⟨g', there, size.trans ?_⟩
      generalize other.paid segment = rest
      simp only [Stage.paid]
      grind
  | @count _ read written due segment delta a =>
    refine ⟨⟨c, ?_, own, ?_⟩, fun counted g there => ?_⟩
    · rw [Memory.bump, Memory.customers_revise]
      exact live
    · rw [Edit.ofNotes_concat]
      simp only [Edit.of?, Option.toList_none, List.append_nil]
      rcases story with story | story
      · refine .inl ?_
        generalize Edit.ofNotes s.notes = edits at story
        generalize c.segments = stored at story
        cases story <;> constructor
      · refine .inr ?_
        generalize Edit.ofNotes s.notes = edits at story
        generalize c.segments = stored at story
        cases story <;> constructor
    · obtain ⟨g', there, size⟩ := sizes counted g there
      refine ⟨_, by rw [Memory.bump, Memory.get?_revise, there, Option.map_some], ?_⟩
      generalize other.paid counted = rest at size ⊢
      simp only [Stage.paid] at size ⊢
      by_cases same : segment = counted
      · simp only [if_pos same, size]
        grind
      · simp only [if_neg same, size]

/-- When both updates have returned, what they added is the difference of the sets stored at last and at
first, and what went astray. -/
theorem Story.settled {after : IdSet} {edits : List Edit} {o o' : Except Error CustomerChange} (segment : Uuid)
    (story : Story before one other edits after) (returned : Returned o one) (returned' : Returned o' other) :
    one.paid segment + other.paid segment =
      after.share segment - before.share segment + stray before segment edits := by
  have nothing {o : Except Error CustomerChange} {before after : IdSet} {due : Uuid → Int64}
      (returned : Returned o (.counting before after due)) : due segment = 0 := by
    cases o with
    | ok change =>
      obtain ⟨_, same⟩ := returned
      cases same
      rfl
    | error e => exact absurd rfl (returned _ _ _)
  cases story with
  | none | one | both => simp [Stage.paid, stray]
  | alone | later | stale =>
    simp only [Stage.paid, stray, nothing returned]
    grind
  | inTurn | crossed =>
    simp only [Stage.paid, stray, nothing returned, nothing returned']
    grind

theorem journaling_answers {e : Effect Call} (w : World Journal) :
    journaling.answers e w.state (World.answer (noting Memory.answer) e w).1
      (World.answer (noting Memory.answer) e w).2.state := by
  cases e with
  | now => rfl
  | freshId entity => exact ⟨trivial, rfl⟩
  | tally metric amount => rfl
  | backend c => exact ⟨w.clock w.readings, rfl⟩

/-- Two updates of one customer, at the start of both. -/
def bothUpdates (id : Uuid) (p q : CustomerPatch) (w : World Journal) :
    Turns Call Call.Answer Journal (Except Error CustomerChange) :=
  ⟨[(update id p).run, (update id q).run], w⟩

/-- Whatever turns two updates of a customer take, each is at a stage from which it ends as it should, and
what both have added is in the sizes. -/
theorem bothUpdates_balanced {w : World Journal} {c : Customer} (p q : CustomerPatch) (schedule : List Nat)
    (unnoted : w.state.notes = []) (stored : w.state.state.customers.get? id = some c) (own : c.id = id) :
    let t := Turns.after (noting Memory.answer) schedule (bothUpdates id p q w)
    ∃ v : Nat → Stage,
      t.Secured journaling (fun _ => editing id) (fun _ o stage _ => Returned o stage) World.state (fun _ => True) v ∧
        Balanced w.state.state id c.segments (v 0) (v 1) t.world.state := by
  induction schedule using List.reverseRecOn with
  | nil =>
    have present : Present id w.state := ⟨c, stored, own⟩
    refine ⟨fun _ => .waiting, fun i _ task found => ?_, ⟨c, stored, own, .inl ?_⟩, fun segment g live => ⟨g, live, ?_⟩⟩
    · have member : task ∈ [(update id p).run, (update id q).run] := List.mem_of_getElem? found
      simp only [List.mem_cons, List.not_mem_nil, or_false] at member
      rcases member with rfl | rfl
      · exact update_secures p present
      · exact update_secures q present
    · change Story _ _ _ (Edit.ofNotes w.state.notes) _
      rw [unnoted]
      exact .none
    · simp [Stage.paid]
  | append_singleton schedule i ih =>
    obtain ⟨v, secured, balanced⟩ := ih
    rw [Turns.after_concat]
    have long : (Turns.after (noting Memory.answer) schedule (bothUpdates id p q w)).tasks.length = 2 :=
      Turns.length_after _
    generalize Turns.after (noting Memory.answer) schedule (bothUpdates id p q w) = t at secured balanced long
    by_cases bound : i < 2
    · obtain ⟨stage, step, secured⟩ := secured.advance (i := i) trivial (fun e _ _ => journaling_answers _)
        fun j _ _ v s v' s' step present => step.present present
      refine ⟨_, secured, ?_⟩
      rcases (by omega : i = 0 ∨ i = 1) with rfl | rfl
      · exact balanced.step step
      · exact (balanced.symm.step step).symm
    · rw [Turns.advance_of_le (by omega)]
      exact ⟨v, secured, balanced⟩

/-- When two updates of one customer have returned, the size of every segment has moved by the difference of
the sets stored at last and at first, and by what went astray: nothing, unless both read the customer before
either wrote. -/
theorem size_after_both_updates {w : World Journal} {id : Uuid} {c : Customer} {p q : CustomerPatch} {schedule : List Nat}
    {o o' : Except Error CustomerChange} (unnoted : w.state.notes = [])
    (stored : w.state.state.customers.get? id = some c) (own : c.id = id)
    (returned : (Turns.after (noting Memory.answer) schedule (bothUpdates id p q w)).tasks = [.done o, .done o']) :
    let s := (Turns.after (noting Memory.answer) schedule (bothUpdates id p q w)).world.state
    ∃ c', s.state.customers.get? id = some c' ∧
      ∀ segment g, w.state.state.segments.get? segment = some g →
        ∃ g', s.state.segments.get? segment = some g' ∧
          g'.audienceSize = g.audienceSize + (c'.segments.share segment - c.segments.share segment +
            stray c.segments segment (Edit.ofNotes s.notes)) := by
  intro s
  obtain ⟨v, secured, ⟨c', live, _, story⟩, sizes⟩ := bothUpdates_balanced p q schedule unnoted stored own
  have first : Returned o (v 0) := (secured 0 trivial _ (by rw [returned]; rfl)).ended
  have second : Returned o' (v 1) := (secured 1 trivial _ (by rw [returned]; rfl)).ended
  refine ⟨c', live, fun segment g there => ?_⟩
  obtain ⟨g', there, size⟩ := sizes segment g there
  refine ⟨g', there, size.trans (congrArg _ ?_)⟩
  rcases story with story | story
  · exact story.settled segment first second
  · rw [Int64.add_comm]
    exact story.settled segment second first

/-- A customer in no segment, and a segment in which nobody is. -/
def ada : Customer :=
  ⟨Uuid.counting 1, .named "Ada", .epoch, .epoch⟩

def regulars : Segment :=
  ⟨Uuid.counting 2, "Regulars", none, [], 0, true, .epoch, .epoch, "ops"⟩

/-- Nothing but the segments of a customer are replaced. -/
def onlySegments (segments : IdSet) : CustomerPatch :=
  ⟨none, none, none, none, none, none, none, none, none, none, none, none, some segments⟩

/-- A store with one customer and one segment, and two updates that both put the customer into it. -/
def joiningTwice (schedule : List Nat) : Turns Call Call.Answer Journal (Except Error CustomerChange) :=
  Turns.after (noting Memory.answer) schedule
    (bothUpdates ada.id (onlySegments (.ofList [regulars.id])) (onlySegments (.ofList [regulars.id]))
      (.start ⟨⟨.insert .empty ada.id ada, .insert .empty regulars.id regulars, .empty⟩, []⟩ (fun _ => .epoch)
        Uuid.counting))

/-- Both updates read the customer, then each writes and counts. What the set that was written first adds is
counted twice. -/
theorem size_after_both_updates_joining :
    let t := joiningTwice [0, 1, 0, 1, 0, 0, 0, 1, 1, 1]
    (∃ o o', t.tasks = [.done o, .done o']) ∧
      stray ada.segments regulars.id (Edit.ofNotes t.world.state.notes) = 1 ∧
      ∃ c', t.world.state.state.customers.get? ada.id = some c' ∧
        ∃ g', t.world.state.state.segments.get? regulars.id = some g' ∧
          g'.audienceSize = regulars.audienceSize +
            (c'.segments.share regulars.id - ada.segments.share regulars.id + 1) := by
  intro t
  have returned : ∃ o o', t.tasks = [.done o, .done o'] := ⟨_, _, rfl⟩
  have astray : stray ada.segments regulars.id (Edit.ofNotes t.world.state.notes) = 1 := by decide +kernel
  obtain ⟨_, _, done⟩ := returned
  obtain ⟨c', live, sizes⟩ := @size_after_both_updates _ ada.id ada _ _ _ _ _ rfl rfl rfl done
  obtain ⟨g', there, size⟩ := sizes regulars.id regulars rfl
  refine ⟨⟨_, _, done⟩, astray, c', live, g', there, size.trans ?_⟩
  exact congrArg (fun stray => regulars.audienceSize + (c'.segments.share regulars.id - ada.segments.share regulars.id + stray))
    astray

/-- The size has then moved by two, and the difference of the sets stored at last and at first is one. -/
theorem joining_twice_counts_twice :
    let t := joiningTwice [0, 1, 0, 1, 0, 0, 0, 1, 1, 1]
    (∃ o o', t.tasks = [.done o, .done o']) ∧
      ∃ c' g', t.world.state.state.customers.get? ada.id = some c' ∧
        t.world.state.state.segments.get? regulars.id = some g' ∧
        g'.audienceSize ≠ regulars.audienceSize + (c'.segments.share regulars.id - ada.segments.share regulars.id) :=
  ⟨⟨_, _, rfl⟩, _, _, rfl, rfl, by decide +kernel⟩

end Customers

end CustomerSegments
