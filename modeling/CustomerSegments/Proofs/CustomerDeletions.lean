import CustomerSegments.Proofs.CommandFootprint
import CustomerSegments.Proofs.SharedCounters
import CustomerSegments.Service.Customers
import Mathlib.Algebra.BigOperators.Fin
import Mathlib.Algebra.Order.BigOperators.Group.Finset
import Mathlib.Data.List.TakeWhile
import Mathlib.Tactic.Abel

namespace CustomerSegments.Redis

open Server Turns

/-- The commands that a server was sent. -/
def Recorded.sent (s : Recorded) : List Command :=
  s.notes.map (·.1)

/-- A server that refuses no command and notes what it is sent. -/
def tracing (minted : Uuid → Prop) : Provision Command Command.Reply Recorded where
  minted := minted
  replies c s a s' := (serving minted).replies c s.state a s'.state ∧ s'.notes = s.notes ++ [⟨c, a⟩]

section

variable {ι α : Type} {minted : Uuid → Prop} {conduct : Conduct Recorded ι} {v : ι} {s : Recorded}

theorem secures_trace {c : Command} {post : Except Error c.Result → ι → Recorded → Prop}
    (asks : ∀ s', conduct.rely s s' → ∀ r s'', s'.state.execute c = .ok (r, s'') →
      ∃ v', conduct.step v s' v' ⟨s'', s'.notes ++ [⟨c, .ok r⟩]⟩ ∧
        ∀ t, conduct.rely ⟨s'', s'.notes ++ [⟨c, .ok r⟩]⟩ t → post (.ok r) v' t) :
    Attempt.Secures (tracing minted) conduct (send c) post v s := by
  refine Program.Secures.ask fun s' others _ s'' answered => ?_
  obtain ⟨⟨r, rfl, executed⟩, noted⟩ := answered
  obtain ⟨state, notes⟩ := s''
  subst noted
  obtain ⟨v', step, ends⟩ := asks s' others r state executed
  exact ⟨v', step, Program.Secures.pure ends⟩

/-- While no command is refused, each turn is answered as by a server that refuses none. -/
theorem traced_of_accepted {t : Turns Command Command.Reply Recorded α} {i : Nat} {e : Effect Command}
    {next : e.Answer Command.Reply → Action α} (issued : ∀ n, minted (t.world.supply n))
    (accepted : (t.advance recording i).world.state.Accepted) (turn : t.tasks[i]? = some (.ask e next)) :
    (tracing minted).answers e t.world.state (World.answer recording e t.world).1
      (World.answer recording e t.world).2.state := by
  have answered := answers_of_accepted issued accepted turn
  cases e with
  | now | tally metric amount => rfl
  | freshId entity => exact ⟨issued _, rfl⟩
  | backend c => exact ⟨answered, rfl⟩

theorem exists_outcomes {tasks : List (Action α)} (returned : ∀ task ∈ tasks, task.result?.isSome) :
    ∃ outcomes : List α, tasks = outcomes.map .done := by
  induction tasks with
  | nil => exact ⟨[], rfl⟩
  | cons task rest ih =>
    obtain ⟨outcomes, same⟩ := ih fun task mem => returned task (List.mem_cons_of_mem _ mem)
    cases task with
    | done a => exact ⟨a :: outcomes, congrArg (_ :: ·) same⟩
    | ask e next => cases returned _ List.mem_cons_self

end

/-- How far one of several deletions of a customer has come. -/
inductive Deletion where
  | waiting
  | missed
  /-- the customer was found, and so much has been added to the size of one segment -/
  | found (paid : Int)

namespace Deletion

def paid : Deletion → Int
  | found paid => paid
  | _ => 0

/-- How often the customer was found. -/
def hits : Deletion → Nat
  | found _ => 1
  | _ => 0

end Deletion

/-- How often a key is read before it is deleted for the first time. -/
def reads (key : String) (sent : List Command) : Nat :=
  (sent.takeWhile (· ≠ .del key)).count (.get key)

theorem reads_concat (key : String) (sent : List Command) (c : Command) :
    reads key (sent ++ [c]) = reads key sent + if .del key ∉ sent ∧ c = .get key then 1 else 0 := by
  by_cases deleted : .del key ∈ sent
  · rw [if_neg fun both => both.1 deleted, reads, reads, List.takeWhile_append, if_neg, Nat.add_zero]
    intro whole
    have all := List.takeWhile_eq_self_iff.1 ( List.takeWhile_prefix _ |>.eq_of_length whole) _ deleted
    exact absurd rfl (of_decide_eq_true all)
  · have all : ∀ x ∈ sent, decide (x ≠ .del key) = true := fun x mem =>
      decide_eq_true fun same => deleted (same ▸ mem)
    rw [reads, reads, List.takeWhile_append_of_pos all, List.takeWhile_eq_self_iff.2 all, List.count_append]
    congr 1
    by_cases read : c = .get key
    · subst read
      simp [deleted]
    · by_cases removed : c = .del key
      · subst removed
        simp
      · simp [read, removed]

variable {l : Layout} {id segment : Uuid} {c : Customer} {v v' : Deletion} {s s' : Recorded} {minted : Uuid → Prop}

/-- One command of a deletion. -/
inductive Deletes (l : Layout) (id : Uuid) (c : Customer) (segment : Uuid) : Deletion → Recorded → Deletion → Recorded → Prop
  | idle (v : Deletion) (s : Recorded) : Deletes l id c segment v s v s
  | find {s : Recorded} (reply : (Command.get (l.customerKey id.text)).Reply) (stored : s.state.customer? l id = some c) :
      Deletes l id c segment .waiting s (.found 0) ⟨s.state, s.notes ++ [⟨.get (l.customerKey id.text), reply⟩]⟩
  | miss {s : Recorded} (reply : (Command.get (l.customerKey id.text)).Reply)
      (absent : s.state.get? (l.customerKey id.text) = none) :
      Deletes l id c segment .waiting s .missed ⟨s.state, s.notes ++ [⟨.get (l.customerKey id.text), reply⟩]⟩
  | remove {s : Recorded} (paid : Int) (reply : (Command.del (l.customerKey id.text)).Reply) :
      Deletes l id c segment (.found paid) s (.found paid)
        ⟨s.state.erase (l.customerKey id.text), s.notes ++ [⟨.del (l.customerKey id.text), reply⟩]⟩
  | pay {s : Recorded} {command : Command} {paid paid' : Int} {state : Server} (reply : command.Reply)
      (unlike : command ≠ .get (l.customerKey id.text) ∧ command ≠ .del (l.customerKey id.text))
      (adds : Adds l (· = id) segment paid s.state paid' state) :
      Deletes l id c segment (.found paid) s (.found paid') ⟨state, s.notes ++ [⟨command, reply⟩]⟩
  /-- what is no command may be reckoned with as well -/
  | reckon {s : Recorded} {paid paid' : Int} (adds : Adds l (· = id) segment paid s.state paid' s.state) :
      Deletes l id c segment (.found paid) s (.found paid') s

/-- The record of a customer stays as it is or is removed, and the same segments are listed. -/
structure Spares (l : Layout) (id : Uuid) (s s' : Server) : Prop where
  record : s'.get? (l.customerKey id.text) = s.get? (l.customerKey id.text) ∨ s'.get? (l.customerKey id.text) = none
  listed : s'.get? (l.key .segments) = s.get? (l.key .segments)

theorem Spares.trans {s s' s'' : Server} (first : Spares l id s s') (rest : Spares l id s' s'') : Spares l id s s'' where
  record := rest.record.elim (fun same => first.record.imp same.trans same.trans) .inr
  listed := rest.listed.trans first.listed

/-- A deletion counts on the others for neither changing the record nor which segments are listed. -/
def deleting (l : Layout) (id : Uuid) (c : Customer) (segment : Uuid) : Conduct Recorded Deletion where
  rely s s' := Spares l id s.state s'.state
  step := Deletes l id c segment
  rely_refl _ := ⟨.inl rfl, rfl⟩
  rely_trans := .trans
  idle := .idle

/-- Each command of a deletion is such that the others can count on it. -/
theorem Deletes.spares (step : Deletes l id c segment v s v' s') : Spares l id s.state s'.state := by
  cases step with
  | idle | find | miss | reckon => exact ⟨.inl rfl, rfl⟩
  | remove =>
    have differ : l.customerKey id.text ≠ l.key .segments := fun same =>
      nomatch Layout.key_injective (show l.key (.customer id) = l.key .segments from same)
    exact ⟨.inr (by rw [Table.get?_erase, if_pos rfl]), by rw [Table.get?_erase, if_neg differ]⟩
  | pay _ _ adds => exact ⟨.inl (adds.others id rfl), adds.listed⟩

/-- There is no record of a customer, or not any more. -/
def Removed (l : Layout) (id : Uuid) (s : Server) : Prop :=
  s.get? (l.customerKey id.text) = none

theorem Removed.after {s s' : Server} (removed : Removed l id s) (others : Spares l id s s') : Removed l id s' := by
  rcases others.record with same | gone
  · exact same.trans removed
  · exact gone

theorem Removed.customer?_eq_none {s : Server} (removed : Removed l id s) : s.customer? l id = none := by
  rw [customer?, string?, show Table.get? s (l.customerKey id.text) = none from removed]

/-- A customer is stored, or there is no record. -/
def StoredOrRemoved (l : Layout) (id : Uuid) (c : Customer) (s : Server) : Prop :=
  s.customer? l id = some c ∨ Removed l id s

theorem StoredOrRemoved.after {s s' : Server} (held : StoredOrRemoved l id c s) (others : Spares l id s s') :
    StoredOrRemoved l id c s' := by
  rcases held with stored | removed
  · exact others.record.imp_left fun same => (customer?_of_eq same).trans stored
  · exact .inr (removed.after others)

theorem getCustomer_finds (held : StoredOrRemoved l id c s.state) :
    Attempt.Secures (tracing minted) (deleting l id c segment) (l.getCustomer id)
      (fun o v s => o = .ok none ∧ v = .missed ∧ Removed l id s.state ∨ o = .ok (some c) ∧ v = .found 0) .waiting s := by
  refine Attempt.secures_bind (secures_trace fun s' others text s'' executed => ?_)
  obtain ⟨read, rfl⟩ := execute_get.1 executed
  rcases held.after others with stored | removed
  · refine ⟨.found 0, .find (.ok text) stored, fun t _ => ?_⟩
    rw [customer?, read] at stored
    cases text with
    | none => cases stored
    | some text =>
      refine Attempt.secures_map (Attempt.secures_settled fun _ _ => .inr ⟨?_, rfl⟩)
      dsimp only at stored
      rw [decode]
      cases decoded : Customer.decoder.decodeText text with
      | ok c' =>
        rw [decoded] at stored
        exact congrArg Except.ok stored
      | error e =>
        rw [decoded] at stored
        cases stored
  · refine ⟨.missed, .miss (.ok text) removed, fun t more => ?_⟩
    have absent : text = none := by
      rw [string?, removed] at read
      cases read
      rfl
    subst absent
    refine Attempt.secures_pure fun t' last => .inl ⟨rfl, rfl, ?_⟩
    exact (Removed.after removed more).after last

/-- After a deletion has found the customer the record is gone. -/
theorem deleteCustomer_removes (held : StoredOrRemoved l id c s.state) :
    Attempt.Secures (tracing minted) (deleting l id c segment) (l.deleteCustomer id)
      (fun o v s => (o = .ok none ∧ v = .missed ∨ o = .ok (some c) ∧ v = .found 0) ∧ Removed l id s.state) .waiting s := by
  refine Attempt.secures_bind ((getCustomer_finds held).mono ?_)
  rintro _ _ s (⟨rfl, rfl, removed⟩ | ⟨rfl, rfl⟩)
  · exact Attempt.secures_pure fun _ others => ⟨.inl ⟨rfl, rfl⟩, removed.after others⟩
  · have dropped : Attempt.Secures (tracing minted) (deleting l id c segment) (send (.del (l.customerKey id.text)))
        (fun o v s => (∃ r, o = .ok r) ∧ v = .found 0 ∧ Removed l id s.state) (.found 0) s := by
      refine secures_trace fun s₁ _ r s₂ executed => ?_
      cases execute_del.1 executed
      refine ⟨.found 0, .remove 0 (.ok r), fun s₃ others => ⟨⟨r, rfl⟩, rfl, Removed.after ?_ others⟩⟩
      rw [Removed, Table.get?_erase, if_pos rfl]
    refine Attempt.secures_bind (dropped.mono ?_)
    rintro _ _ s ⟨⟨_, rfl⟩, rfl, removed⟩
    have unlisted : Attempt.Secures (tracing minted) (deleting l id c segment) (send (.srem l.customersKey id.text))
        (fun o v s => (∃ r, o = .ok r) ∧ v = .found 0 ∧ Removed l id s.state) (.found 0) s := by
      refine secures_trace fun s₁ before r s₂ executed => ?_
      have quiet : Quiet l (· = id) (.srem l.customersKey id.text) := .of_customers rfl
      have step : Deletes l id c segment (.found 0) s₁ (.found 0) _ :=
        .pay (.ok r) ⟨nofun, nofun⟩ (quiet.adds executed)
      exact ⟨.found 0, step, fun s₃ others => ⟨⟨r, rfl⟩, rfl, ((removed.after before).after step.spares).after others⟩⟩
    refine Attempt.secures_bind (unlisted.mono ?_)
    rintro _ _ s ⟨⟨_, rfl⟩, rfl, removed⟩
    exact Attempt.secures_pure fun _ others => ⟨.inr ⟨rfl, rfl⟩, removed.after others⟩

/-- An addition to the size of some segment. -/
def Bumps (l : Layout) (command : Command) : Prop :=
  ∃ segment delta, command = .incrementIfLive l.segmentsKey l.audienceKey segment delta

theorem Bumps.unlike {command : Command} (bumps : Bumps l command) :
    command ≠ .get (l.customerKey id.text) ∧ command ≠ .del (l.customerKey id.text) := by
  obtain ⟨_, _, rfl⟩ := bumps
  exact ⟨nofun, nofun⟩

theorem incrementAudienceSize_bumps (segment : Uuid) (delta : Int64) :
    SendsOnly (Bumps l) (l.incrementAudienceSize segment delta) := by
  refine (SendsOnly.send ⟨_, _, rfl⟩).bind fun size => ?_
  cases size with
  | none => exact .throw _
  | some size => exact .pure _

theorem customerDeleted_bumps (l : Layout) (c : Customer) :
    (l.realize (Audience.customerDeleted c)).AsksOnly (Effect.Within (Bumps l)) := by
  refine realize_asksOnly (Q := fun call => ∃ segment delta, call = .incrementAudienceSize segment delta) ?_
    (Audience.applyDelta_asksOnly (fun segment delta => ⟨segment, delta, rfl⟩) _ _)
  rintro _ ⟨segment, delta, rfl⟩
  exact incrementAudienceSize_bumps segment delta

/-- What a deletion adds to sizes is reckoned as by a conduct that keeps its own account of it. -/
theorem pays {α : Type} {task : Action α} {conduct : Conduct Server Int} {post : α → Int → Server → Prop}
    {K : Server → Prop} {paid : Int} (only : task.AsksOnly (Effect.Within (Bumps l))) (removed : Removed l id s.state)
    (known : K s.state) (keeps : ∀ {s s'}, Spares l id s s' → K s → K s' ∧ conduct.rely s s')
    (adds : ∀ {p s p' s'}, K s → conduct.step p s p' s' → Adds l (· = id) segment p s p' s')
    (secures : task.Secures (serving minted) conduct post paid s.state) :
    task.Secures (tracing minted) (deleting l id c segment)
      (fun a v s => ∃ paid, v = .found paid ∧ post a paid s.state ∧ K s.state ∧ Removed l id s.state) (.found paid) s := by
  induction task generalizing paid s with
  | done a =>
    refine Program.Secures.pure fun s' others => ⟨paid, rfl, ?_, (keeps others known).1, removed.after others⟩
    exact (secures.rely (keeps others known).2).ended
  | ask e next ih =>
    refine Program.Secures.ask fun s' others a s'' answered => ?_
    have removed := removed.after others
    have secures := secures.rely (keeps others known).2
    have known := (keeps others known).1
    cases e with
    | now | tally metric amount =>
      rw [show s'' = s' from answered]
      obtain ⟨paid', step, rest⟩ := secures.answered (show (serving minted).answers _ s'.state a s'.state from rfl)
      exact ⟨.found paid', .reckon (adds known step), ih a (only.2 a) removed known rest⟩
    | freshId entity =>
      rw [show s'' = s' from answered.2]
      obtain ⟨paid', step, rest⟩ := secures.answered
        (show (serving minted).answers (.freshId entity) s'.state a s'.state from ⟨answered.1, rfl⟩)
      exact ⟨.found paid', .reckon (adds known step), ih a (only.2 a) removed known rest⟩
    | backend command =>
      obtain ⟨⟨r, rfl, executed⟩, noted⟩ := answered
      obtain ⟨paid', step, rest⟩ := secures.answered ⟨r, rfl, executed⟩
      obtain ⟨state, notes⟩ := s''
      subst noted
      have step : Deletes l id c segment (.found paid) s' (.found paid') ⟨state, s'.notes ++ [⟨command, .ok r⟩]⟩ :=
        .pay (.ok r) only.1.unlike (adds known step)
      exact ⟨.found paid', step, ih _ (only.2 _) (removed.after step.spares) (keeps step.spares known).1 rest⟩

/-- What writes sizes only, whatever the others do. -/
def sizing (l : Layout) : Conduct Server Int where
  rely _ _ := True
  step paid s paid' s' := paid' = paid ∧ ∀ slot ≠ Slot.audience, s'.get? (l.key slot) = s.get? (l.key slot)
  rely_refl _ := trivial
  rely_trans _ _ := trivial
  idle _ _ := ⟨rfl, fun _ _ => rfl⟩

/-- For a segment that is not listed nothing has to be reckoned. -/
theorem pays_unlisted {α : Type} {task : Action α} {paid : Int} (only : task.AsksOnly (Effect.Within (Bumps l)))
    (removed : Removed l id s.state) (unlisted : ¬ s.state.Lists l segment) :
    task.Secures (tracing minted) (deleting l id c segment)
      (fun _ v s => v = .found paid ∧ ¬ s.state.Lists l segment ∧ Removed l id s.state) (.found paid) s := by
  have sized : task.Secures (serving minted) (sizing l) (fun _ paid' _ => paid' = paid) paid s.state := by
    refine secures_of_asksOnly only ?_
    rintro _ ⟨_, _, rfl⟩ s r s' executed
    exact ⟨rfl, fun slot apart => execute_keeps executed fun mem => apart (Layout.key_injective (List.mem_singleton.1 mem))⟩
  refine (pays (K := fun s => ¬ s.Lists l segment) only removed unlisted ?_ ?_ sized).mono ?_
  · exact fun others unlisted => ⟨fun listed => unlisted (listed.of_eq others.listed.symm), trivial⟩
  · rintro p s p' s' unlisted ⟨-, kept⟩
    exact ⟨fun _ _ => kept _ nofun, kept _ nofun, fun listed => absurd listed unlisted⟩
  · rintro _ _ s ⟨_, rfl, rfl, unlisted, removed⟩
    exact ⟨rfl, unlisted, removed⟩

/-- How a deletion ends: it has missed the customer, or has taken its share from the size of the segment. -/
def Ended (l : Layout) (id : Uuid) (c : Customer) (segment : Uuid) (o : Except Error DeltaOutcome) (v : Deletion)
    (s : Recorded) : Prop :=
  (o = .error (.missing .customer id) ∧ v = .missed ∨
    ∃ outcome paid, o = .ok outcome ∧ v = .found paid ∧
      (s.state.Lists l segment → paid = c.segments.gain .empty segment)) ∧
  Removed l id s.state

theorem delete_secures (held : StoredOrRemoved l id c s.state) :
    (l.realize (Customers.delete id).run).Secures (tracing minted) (deleting l id c segment) (Ended l id c segment)
      .waiting s := by
  change Attempt.Secures _ _ (l.realized (Customers.delete id)) _ _ _
  rw [Customers.delete, Layout.realized_bind, Layout.realized_call]
  refine Attempt.secures_bind ((deleteCustomer_removes held).mono ?_)
  rintro _ _ s ⟨⟨rfl, rfl⟩ | ⟨rfl, rfl⟩, removed⟩
  · exact Attempt.secures_throw fun _ others => ⟨.inl ⟨rfl, rfl⟩, removed.after others⟩
  · dsimp only
    rw [Layout.realized_sure]
    refine Attempt.secures_sure ?_
    by_cases listed : s.state.Lists l segment
    · have counts {s s' : Server} (others : Spares l id s s') (_ : True) :
          True ∧ (adding l (· = id) segment none).rely s s' := by
        refine ⟨trivial, ?_, fun listed => listed.of_eq others.listed⟩
        rintro _ ⟨⟩
      refine (pays (customerDeleted_bumps l c) removed trivial counts (fun _ step => step)
        (customerDeleted_secures c listed)).mono ?_
      rintro outcome _ s ⟨paid, rfl, ⟨same, _⟩, -, removed⟩
      exact ⟨.inr ⟨outcome, paid, rfl, rfl, fun _ => same.trans (Int.zero_add _)⟩, removed⟩
    · refine (pays_unlisted (customerDeleted_bumps l c) removed listed).mono ?_
      rintro outcome _ s ⟨rfl, unlisted, removed⟩
      exact ⟨.inr ⟨outcome, 0, rfl, rfl, fun listed => absurd listed unlisted⟩, removed⟩

/-- The record is stored until it is removed for the first time, and then somebody had read it. -/
structure Tracked (l : Layout) (id : Uuid) (c : Customer) (s : Recorded) : Prop where
  before : .del (l.customerKey id.text) ∉ s.sent → s.state.customer? l id = some c
  after : .del (l.customerKey id.text) ∈ s.sent →
    Removed l id s.state ∧ 0 < reads (l.customerKey id.text) s.sent

namespace Deletes

theorem sent_concat (state : Server) (s : Recorded) (command : Command) (reply : command.Reply) :
    Recorded.sent ⟨state, s.notes ++ [⟨command, reply⟩]⟩ = s.sent ++ [command] := by
  rw [Recorded.sent, Recorded.sent, List.map_append, List.map_cons, List.map_nil]

/-- One more read before the removal is one more deletion that finds the customer. -/
theorem reads_eq (step : Deletes l id c segment v s v' s') (tracked : Tracked l id c s) :
    reads (l.customerKey id.text) s'.sent + v.hits = reads (l.customerKey id.text) s.sent + v'.hits := by
  cases step with
  | idle | reckon => rfl
  | find reply stored =>
    have unremoved : .del (l.customerKey id.text) ∉ s.sent := fun removed => by
      rw [Removed.customer?_eq_none (tracked.after removed).1] at stored
      cases stored
    rw [sent_concat, reads_concat, if_pos ⟨unremoved, rfl⟩]
    rfl
  | miss reply absent =>
    have removed : .del (l.customerKey id.text) ∈ s.sent := Classical.byContradiction fun unremoved => by
      have stored := tracked.before unremoved
      rw [Removed.customer?_eq_none absent] at stored
      cases stored
    rw [sent_concat, reads_concat, if_neg fun both => both.1 removed]
    rfl
  | remove paid reply =>
    rw [sent_concat, reads_concat, if_neg fun both => nomatch both.2]
    rfl
  | pay reply unlike adds =>
    rw [sent_concat, reads_concat, if_neg fun both => unlike.1 both.2]
    rfl

theorem tracked (step : Deletes l id c segment v s v' s') (tracked : Tracked l id c s)
    (counted : v.hits ≤ reads (l.customerKey id.text) s.sent) : Tracked l id c s' := by
  have more {state : Server} {command : Command} {reply : command.Reply} :
      reads (l.customerKey id.text) s.sent ≤
        reads (l.customerKey id.text) (Recorded.sent ⟨state, s.notes ++ [⟨command, reply⟩]⟩) := by
    rw [sent_concat, reads_concat]
    exact Nat.le_add_right _ _
  have same {state : Server} {command : Command} {reply : command.Reply}
      (unlike : command ≠ .del (l.customerKey id.text))
      (kept : state.get? (l.customerKey id.text) = s.state.get? (l.customerKey id.text)) :
      Tracked l id c ⟨state, s.notes ++ [⟨command, reply⟩]⟩ := by
    have sent : .del (l.customerKey id.text) ∈ Recorded.sent ⟨state, s.notes ++ [⟨command, reply⟩]⟩ ↔
        .del (l.customerKey id.text) ∈ s.sent := by
      rw [sent_concat, List.mem_append, List.mem_singleton, or_iff_left unlike.symm]
    refine ⟨fun unremoved => ?_, fun removed => ?_⟩
    · exact (customer?_of_eq kept).trans (tracked.before fun mem => unremoved (sent.2 mem))
    · obtain ⟨gone, found⟩ := tracked.after (sent.1 removed)
      exact ⟨kept.trans gone, found.trans_le more⟩
  cases step with
  | idle | reckon => exact tracked
  | find | miss => exact same nofun rfl
  | pay reply unlike adds => exact same unlike.2 (adds.others id rfl)
  | remove paid reply =>
    refine ⟨fun unremoved => absurd ?_ unremoved, fun _ => ⟨?_, (Nat.lt_of_lt_of_le Nat.one_pos counted).trans_le more⟩⟩
    · rw [sent_concat]
      exact List.mem_append_right _ List.mem_cons_self
    · rw [Removed, Table.get?_erase, if_pos rfl]

/-- What a command adds to the size of the segment goes into the sum of its deletion. -/
theorem size_eq (step : Deletes l id c segment v s v' s') (listed : s.state.Lists l segment) {n : Int}
    (size : s.state.audienceSize? l segment = some n) :
    s'.state.audienceSize? l segment = some (n + (v'.paid - v.paid)) := by
  cases step with
  | idle => rw [size, Int.sub_self, Int.add_zero]
  | find | miss => exact size.trans (congrArg some (Int.add_zero n).symm)
  | remove paid reply =>
    have differ : l.customerKey id.text ≠ l.key .audience := fun same =>
      nomatch Layout.key_injective (show l.key (.customer id) = l.key .audience from same)
    rw [audienceSize?_of_eq (s := s.state) (by rw [Table.get?_erase, if_neg differ]), size, Int.sub_self, Int.add_zero]
  | pay _ _ adds | reckon adds => exact adds.size listed n size

end Deletes

/-- Deletions of one customer before the first turn. -/
def Layout.deletions (l : Layout) (id : Uuid) (n : Nat) (w : World Recorded) :
    Turns Command Command.Reply Recorded (Except Error DeltaOutcome) :=
  ⟨List.replicate n (l.realize (Customers.delete id).run), w⟩

/-- Every deletion keeps to its conduct, as many have found the customer as read the record before it was removed, and
the size of a listed segment is the first one and what they have added so far. -/
structure Deleting (l : Layout) (id : Uuid) (c : Customer) (segment : Uuid) (n : Nat) (m : Option Int)
    (t : Turns Command Command.Reply Recorded (Except Error DeltaOutcome)) (v : Nat → Deletion) : Prop where
  secured : t.Secured (tracing fun _ => True) (fun _ => deleting l id c segment) (fun _ => Ended l id c segment) (·.state)
    (fun _ => True) v
  tracked : Tracked l id c t.world.state
  reads : reads (l.customerKey id.text) t.world.state.sent = ∑ i ∈ Finset.range n, (v i).hits
  size : ∀ first, m = some first → t.world.state.state.Lists l segment ∧
    t.world.state.state.audienceSize? l segment = some (first + ∑ i ∈ Finset.range n, (v i).paid)

/-- A sum in which one of the summands changes. -/
theorem sum_update {M : Type} [AddCommMonoid M] (f : Deletion → M) (v : Nat → Deletion) (value : Deletion) {i n : Nat}
    (bound : i < n) :
    ∑ j ∈ Finset.range n, f (Function.update v i value j) + f (v i) = ∑ j ∈ Finset.range n, f (v j) + f value := by
  have mem : i ∈ Finset.range n := Finset.mem_range.2 bound
  have others : ∑ j ∈ (Finset.range n).erase i, f (Function.update v i value j) = ∑ j ∈ (Finset.range n).erase i, f (v j) :=
    Finset.sum_congr rfl fun j mem => by rw [Function.update_of_ne (Finset.ne_of_mem_erase mem)]
  rw [← Finset.add_sum_erase _ _ mem, ← Finset.add_sum_erase _ (fun j => f (v j)) mem, others, Function.update_self]
  abel

theorem Deleting.advance {n : Nat} {m : Option Int} {t : Turns Command Command.Reply Recorded (Except Error DeltaOutcome)}
    {v : Nat → Deletion} {i : Nat} (state : Deleting l id c segment n m t v) (long : t.tasks.length = n)
    (accepted : (t.advance recording i).world.state.Accepted) :
    ∃ v, Deleting l id c segment n m (t.advance recording i) v := by
  obtain ⟨secured, tracked, counted, size⟩ := state
  by_cases bound : i < n
  · obtain ⟨value, step, secured⟩ := secured.advance (i := i) trivial
      (fun e next turn => traced_of_accepted (fun _ => trivial) accepted turn) fun _ _ _ _ _ _ _ step => step.spares
    have mem : i ∈ Finset.range n := Finset.mem_range.2 bound
    have hits : (v i).hits ≤ Redis.reads (l.customerKey id.text) t.world.state.sent := by
      rw [counted]
      exact Finset.single_le_sum (f := fun i => (v i).hits) (fun _ _ => Nat.zero_le _) mem
    refine ⟨Function.update v i value, secured, step.tracked tracked hits, ?_, fun first same => ?_⟩
    · have sum := sum_update Deletion.hits v value bound
      have more := step.reads_eq tracked
      omega
    · obtain ⟨listed, size⟩ := size first same
      have sum := sum_update Deletion.paid v value bound
      refine ⟨listed.of_eq step.spares.listed, ?_⟩
      rw [step.size_eq listed size]
      exact congrArg some (by omega)
  · rw [Turns.advance_of_le (by omega)]
    exact ⟨v, secured, tracked, counted, size⟩

theorem deleting_start {n : Nat} {m : Option Int} {w : World Recorded} (unnoted : w.state.notes = [])
    (stored : w.state.state.customer? l id = some c)
    (size : ∀ first, m = some first →
      w.state.state.Lists l segment ∧ w.state.state.audienceSize? l segment = some first) :
    Deleting l id c segment n m (l.deletions id n w) fun _ => .waiting where
  secured i _ task found := by
    have same : task = l.realize (Customers.delete id).run := List.eq_of_mem_replicate (List.mem_of_getElem? found)
    subst same
    exact delete_secures (.inl stored)
  tracked := by
    have sent : Recorded.sent w.state = [] := congrArg (List.map _) unnoted
    exact ⟨fun _ => stored, fun removed => absurd (sent ▸ removed) List.not_mem_nil⟩
  reads := by
    have sent : Recorded.sent w.state = [] := congrArg (List.map _) unnoted
    rw [Layout.deletions, sent]
    exact (Finset.sum_const_zero).symm
  size first same := by
    refine ⟨(size first same).1, (size first same).2.trans (congrArg some ?_)⟩
    exact ((congrArg (first + ·) Finset.sum_const_zero).trans (Int.add_zero first)).symm

/-- While a customer is deleted several times at once and no command is refused. -/
theorem deleting_after {n : Nat} {m : Option Int} {w : World Recorded} (unnoted : w.state.notes = [])
    (stored : w.state.state.customer? l id = some c)
    (size : ∀ first, m = some first →
      w.state.state.Lists l segment ∧ w.state.state.audienceSize? l segment = some first) (schedule : List Nat)
    (accepted : (Turns.after recording schedule (l.deletions id n w)).world.state.Accepted) :
    ∃ v, Deleting l id c segment n m (Turns.after recording schedule (l.deletions id n w)) v := by
  induction schedule using List.reverseRecOn with
  | nil => exact ⟨_, deleting_start unnoted stored size⟩
  | append_singleton schedule i ih =>
    rw [Turns.after_concat] at accepted ⊢
    obtain ⟨v, state⟩ := ih accepted.of_advance
    exact state.advance ((Turns.length_after _).trans List.length_replicate) accepted

theorem countP_eq_sum {α : Type} (p : α → Bool) (xs : List α) (f : Nat → Nat)
    (same : ∀ (i : Nat) (bound : i < xs.length), f i = if p xs[i] then 1 else 0) :
    xs.countP p = ∑ i ∈ Finset.range xs.length, f i := by
  induction xs using List.reverseRecOn with
  | nil => rfl
  | append_singleton xs x ih =>
    have last := same xs.length (by simp)
    have earlier (i : Nat) (bound : i < xs.length) : f i = if p xs[i] then 1 else 0 := by
      have there := same i (by simp; omega)
      rwa [List.getElem_append_left bound] at there
    rw [List.getElem_concat_length rfl] at last
    rw [List.countP_append, ih earlier, List.length_append, List.length_singleton, Finset.sum_range_succ, last,
      List.countP_singleton]

namespace Ended

variable {o : Except Error DeltaOutcome}

theorem hits_eq (ended : Ended l id c segment o v s) : v.hits = if Except.isOk o then 1 else 0 := by
  obtain ⟨⟨rfl, rfl⟩ | ⟨_, _, rfl, rfl, _⟩, _⟩ := ended <;> rfl

theorem paid_eq (ended : Ended l id c segment o v s) (listed : s.state.Lists l segment) :
    v.paid = v.hits * c.segments.gain .empty segment := by
  obtain ⟨⟨rfl, rfl⟩ | ⟨_, _, rfl, rfl, same⟩, _⟩ := ended
  · exact (Int.zero_mul _).symm
  · exact (same listed).trans (Int.one_mul _).symm

end Ended

theorem Deleting.ended {n : Nat} {m : Option Int} {t : Turns Command Command.Reply Recorded (Except Error DeltaOutcome)}
    {v : Nat → Deletion} {outcomes : List (Except Error DeltaOutcome)} (state : Deleting l id c segment n m t v)
    (returned : t.tasks = outcomes.map .done) (i : Nat) (bound : i < outcomes.length) :
    Ended l id c segment outcomes[i] (v i) t.world.state := by
  refine Program.Secures.ended (state.secured i trivial _ ?_)
  rw [returned, List.getElem?_map, List.getElem?_eq_getElem bound]
  rfl

/-- However the commands of several deletions of one customer are interleaved, as long as no command is refused: when
all have returned, as many of them have answered with the customer's segments as read the record before it was removed
for the first time, and at least one, the others have missed the customer, the record is gone, and each of the former
has taken one from the size of every listed segment that the customer was in. -/
theorem sizes_after_deletions {n : Nat} {w : World Recorded} {schedule : List Nat}
    {outcomes : List (Except Error DeltaOutcome)} (unnoted : w.state.notes = [])
    (stored : w.state.state.customer? l id = some c) (any : 0 < n)
    (accepted : (Turns.after recording schedule (l.deletions id n w)).world.state.Accepted)
    (returned : (Turns.after recording schedule (l.deletions id n w)).tasks = outcomes.map .done) :
    let s := (Turns.after recording schedule (l.deletions id n w)).world.state
    let found := reads (l.customerKey id.text) s.sent
    outcomes.countP Except.isOk = found ∧ 0 < found ∧
      (∀ o ∈ outcomes, Except.isOk o = false → o = .error (.missing .customer id)) ∧
      s.state.get? (l.customerKey id.text) = none ∧
      ∀ segment first, w.state.state.Lists l segment → w.state.state.audienceSize? l segment = some first →
        s.state.audienceSize? l segment = some (first - if segment ∈ c.segments then found else 0) := by
  intro s found
  have long : outcomes.length = n := by
    have mapped := congrArg List.length returned
    rw [List.length_map, Turns.length_after] at mapped
    exact mapped.symm.trans List.length_replicate
  have counts (segment : Uuid) (m : Option Int)
      (size : ∀ first, m = some first →
        w.state.state.Lists l segment ∧ w.state.state.audienceSize? l segment = some first) :
      ∃ v, Deleting l id c segment n m (Turns.after recording schedule (l.deletions id n w)) v ∧
        outcomes.countP Except.isOk = found := by
    obtain ⟨v, state⟩ := deleting_after unnoted stored size schedule accepted
    refine ⟨v, state, ?_⟩
    rw [countP_eq_sum _ outcomes (fun i => (v i).hits) fun i bound => (state.ended returned i bound).hits_eq, long]
    exact state.reads.symm
  obtain ⟨v, state, counted⟩ := counts id none nofun
  have removed : Removed l id s.state := (state.ended returned 0 (by omega)).2
  have read : 0 < found := (state.tracked.after (Classical.byContradiction fun unremoved => by
    have there := state.tracked.before unremoved
    rw [Removed.customer?_eq_none removed] at there
    cases there)).2
  refine ⟨counted, read, fun o mem failed => ?_, removed, fun segment first listed size => ?_⟩
  · obtain ⟨i, bound, rfl⟩ := List.getElem_of_mem mem
    obtain ⟨⟨same, _⟩ | ⟨_, _, same, _, _⟩, _⟩ := state.ended returned i bound
    · exact same
    · rw [same] at failed
      cases failed
  · obtain ⟨v, state, _⟩ := counts segment (some first) fun _ same => ⟨listed, size.trans same⟩
    obtain ⟨listed, size⟩ := state.size first rfl
    have paid : ∑ i ∈ Finset.range n, (v i).paid = found * c.segments.gain .empty segment := by
      rw [show found = ∑ i ∈ Finset.range n, (v i).hits from state.reads, Nat.cast_sum, Finset.sum_mul]
      refine Finset.sum_congr rfl fun i mem => ?_
      rw [Finset.mem_range, ← long] at mem
      exact (state.ended returned i mem).paid_eq listed
    rw [size, paid, IdSet.gain, if_neg IdSet.not_mem_empty]
    split
    · exact congrArg some (by omega)
    · exact congrArg some (by omega)

/-- A server with a segment of size five and a customer in it. -/
def fiveMembers : World Recorded :=
  .start
    ⟨.ofList
      [("p:audience", .hash (.ofList [("00000000-0000-0000-0000-000000000002", "5")])),
        ("p:customer:00000000-0000-0000-0000-000000000001",
          .string "\x7b\"id\":\"00000000-0000-0000-0000-000000000001\",\"name\":\"Ada\",\"segments\":[\"00000000-0000-0000-0000-000000000002\"],\"createdAt\":\"1970-01-01T00:00:00Z\",\"updatedAt\":\"1970-01-01T00:00:00Z\"\x7d"),
        ("p:customers", .set (.ofList [("00000000-0000-0000-0000-000000000001", ())])),
        ("p:segments", .set (.ofList [("00000000-0000-0000-0000-000000000002", ())]))],
      []⟩
    (fun _ => .epoch) Uuid.counting

/-- Two of three deletions read the record before it is removed. -/
def deletionTurns : List Nat :=
  [0, 1, 0, 0, 2, 1, 1, 0, 1, 0, 1]

/-- The deletions after these turns. -/
def deletedTwice : Turns Command Command.Reply Recorded (Except Error DeltaOutcome) :=
  Turns.after recording deletionTurns (Layout.deletions ⟨"p", 1⟩ (.counting 1) 3 fiveMembers)

theorem sizes_after_deletions_twice :
    deletedTwice.world.state.Accepted ∧ (∀ task ∈ deletedTwice.tasks, task.result?.isSome) ∧
      reads "p:customer:00000000-0000-0000-0000-000000000001" deletedTwice.world.state.sent = 2 ∧
        deletedTwice.world.state.state.audienceSize? ⟨"p", 1⟩ (.counting 2) = some (5 - 2) := by
  have run : (deletedTwice.world.state.Accepted ∧ (∀ task ∈ deletedTwice.tasks, task.result?.isSome) ∧
      reads "p:customer:00000000-0000-0000-0000-000000000001" deletedTwice.world.state.sent = 2) ∧
        (fiveMembers.state.state.customer? ⟨"p", 1⟩ (.counting 1)).map (·.segments) = some (.ofList [.counting 2]) := by
    decide +kernel
  obtain ⟨run, there⟩ := run
  obtain ⟨c, stored, same⟩ := Option.map_eq_some_iff.1 there
  unfold deletedTwice at run ⊢
  obtain ⟨accepted, ended, twice⟩ := run
  obtain ⟨outcomes, returned⟩ := exists_outcomes ended
  obtain ⟨_, _, _, _, sizes⟩ := @sizes_after_deletions ⟨"p", 1⟩ (.counting 1) c 3 fiveMembers deletionTurns outcomes rfl
    stored (by decide) accepted returned
  have size := sizes (.counting 2) 5 ⟨.ofList [("00000000-0000-0000-0000-000000000002", ())], rfl, rfl⟩ rfl
  have member : Uuid.counting 2 ∈ c.segments := by
    rw [same]
    decide
  refine ⟨accepted, ended, twice, size.trans ?_⟩
  rw [if_pos member]
  exact congrArg (fun found : Nat => some (5 - (found : Int))) twice

end CustomerSegments.Redis
