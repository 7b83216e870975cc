import CustomerSegments.Proofs.CommandFootprint
import CustomerSegments.Proofs.ConcurrentWrites

namespace CustomerSegments.Redis

namespace Server

variable (l : Layout) (s : Server) (id : Uuid)

/-- A segment that is not among the listed ones. -/
def Unlisted : Prop :=
  ∃ ids, s.set? l.segmentsKey = .ok ids ∧ ids.contains id.text = false

/-- A segment that has no entry among the audience sizes. -/
def Unsized : Prop :=
  ∃ sizes, s.hash? l.audienceKey = .ok sizes ∧ sizes.contains id.text = false

end Server

open Server Turns

/-- A segment that is not listed stays so, and then gets no size if it has none. -/
structure Sheds (l : Layout) (id : Uuid) (s s' : Server) : Prop where
  unlisted : s.Unlisted l id → s'.Unlisted l id
  unsized : s.Unlisted l id → s.Unsized l id → s'.Unsized l id

variable {l : Layout} {id : Uuid} {s s' s'' : Server} {call : Store.Call} {c : Command}

theorem unlisted_of_srem {r : Unit} (executed : s.execute (.srem l.segmentsKey id.text) = .ok (r, s')) :
    s'.Unlisted l id := by
  obtain ⟨ids, _, rfl⟩ := execute_srem.1 executed
  exact ⟨_, set?_putSet _ _ _, by rw [contains_erase, decide_eq_true rfl, Bool.not_true, Bool.false_and]⟩

theorem unsized_of_hdel {r : Unit} (executed : s.execute (.hdel l.audienceKey id.text) = .ok (r, s')) :
    s'.Unsized l id := by
  obtain ⟨sizes, _, rfl⟩ := execute_hdel.1 executed
  exact ⟨_, hash?_putHash _ _ _, by rw [contains_erase, decide_eq_true rfl, Bool.not_true, Bool.false_and]⟩

namespace Sheds

theorem refl (s : Server) : Sheds l id s s :=
  ⟨fun unlisted => unlisted, fun _ unsized => unsized⟩

theorem trans (first : Sheds l id s s') (rest : Sheds l id s' s'') : Sheds l id s s'' :=
  ⟨fun unlisted => rest.unlisted (first.unlisted unlisted), fun unlisted unsized =>
    rest.unsized (first.unlisted unlisted) (first.unsized unlisted unsized)⟩

theorem of_elsewhere (slot : Slot) (elsewhere : Elsewhere l slot s s') (listed : slot ≠ .segments)
    (sized : slot ≠ .audience) : Sheds l id s s' where
  unlisted := fun ⟨ids, known, absent⟩ => ⟨ids, (elsewhere.set?_segments listed).trans known, absent⟩
  unsized := fun _ ⟨sizes, known, absent⟩ => ⟨sizes, (elsewhere.hash?_audience sized).trans known, absent⟩

/-- The set of ids is written, without the segment if it was not there. -/
theorem of_listing {ids ids' : Table String Unit} (elsewhere : Elsewhere l .segments s s')
    (known : s.set? l.segmentsKey = .ok ids) (written : s'.set? l.segmentsKey = .ok ids')
    (kept : ids.contains id.text = false → ids'.contains id.text = false) : Sheds l id s s' := by
  refine ⟨?_, fun _ ⟨sizes, stored, absent⟩ => ⟨sizes, (elsewhere.hash?_audience nofun).trans stored, absent⟩⟩
  rintro ⟨_, same, absent⟩
  rw [known] at same
  cases same
  exact ⟨ids', written, kept absent⟩

/-- The sizes are written, without one for the segment if it is not listed and had none. -/
theorem of_sizes {sizes sizes' : Table String String} (elsewhere : Elsewhere l .audience s s')
    (stored : s.hash? l.audienceKey = .ok sizes) (written : s'.hash? l.audienceKey = .ok sizes')
    (kept : s.Unlisted l id → sizes.contains id.text = false → sizes'.contains id.text = false) : Sheds l id s s' := by
  refine ⟨fun ⟨ids, known, absent⟩ => ⟨ids, (elsewhere.set?_segments nofun).trans known, absent⟩, ?_⟩
  rintro unlisted ⟨_, same, absent⟩
  rw [stored] at same
  cases same
  exact ⟨sizes', written, kept unlisted absent⟩

theorem contains_insert_of_ne {ν : Type} {t : Table String ν} {other : Uuid} (v : ν) (apart : other ≠ id) :
    (t.insert other.text v).contains id.text = t.contains id.text := by
  rw [contains_insert, decide_eq_false fun same => apart (Uuid.text_injective same), Bool.false_or]

theorem contains_erase_of_absent {ν : Type} {t : Table String ν} {key x : String} (absent : t.contains x = false) :
    (t.erase key).contains x = false := by
  rw [contains_erase, absent, Bool.and_false]

theorem ne_of_listed {other : Uuid} {ids : Table String Unit} (known : s.set? l.segmentsKey = .ok ids)
    (listed : ids.contains other.text = true) (unlisted : s.Unlisted l id) : other ≠ id := by
  rintro rfl
  obtain ⟨_, same, absent⟩ := unlisted
  rw [known] at same
  cases same
  rw [listed] at absent
  cases absent

/-- No command of a call lists a segment anew or gives it a size unless it is listed, apart from the call that
brings the segment in. -/
theorem of_sends {r : c.Result} (unborn : ∀ g, call = .insertSegment g → g.id ≠ id) (sent : l.Sends call c)
    (executed : s.execute c = .ok (r, s')) : Sheds l id s s' := by
  cases sent with
  | read unwritten =>
    have kept : Elsewhere l .names s s' := fun _ _ => execute_keeps executed (by rw [unwritten]; exact List.not_mem_nil)
    exact of_elsewhere .names kept nofun nofun
  | storeCustomer c | replaceCustomer c => exact of_elsewhere (.customer c.id) (.of_executed executed rfl) nofun nofun
  | dropCustomer customer => exact of_elsewhere (.customer customer) (.of_executed executed rfl) nofun nofun
  | swapCustomer _ customer _ _ => exact of_elsewhere (.customer customer) (.of_executed executed rfl) nofun nofun
  | listCustomer c => exact of_elsewhere .customers (.of_executed executed rfl) nofun nofun
  | unlistCustomer _ => exact of_elsewhere .customers (.of_executed executed rfl) nofun nofun
  | storeSegment g | replaceSegment g => exact of_elsewhere (.segment g.id) (.of_executed executed rfl) nofun nofun
  | dropSegment other => exact of_elsewhere (.segment other) (.of_executed executed rfl) nofun nofun
  | claimName _ | claimNewName _ => exact of_elsewhere .names (.of_executed executed rfl) nofun nofun
  | giveUpName _ _ | freeName _ _ => exact of_elsewhere .names (.of_executed executed rfl) nofun nofun
  | listSegment g =>
    have elsewhere : Elsewhere l .segments s s' := .of_executed executed rfl
    obtain ⟨ids, known, rfl⟩ := execute_sadd.1 executed
    refine of_listing elsewhere known (set?_putSet _ _ _) fun absent => ?_
    rw [contains_insert_of_ne () (unborn g rfl), absent]
  | unlistSegment other =>
    have elsewhere : Elsewhere l .segments s s' := .of_executed executed rfl
    obtain ⟨ids, known, rfl⟩ := execute_srem.1 executed
    exact of_listing elsewhere known (set?_putSet _ _ _) contains_erase_of_absent
  | sizeSegment g text =>
    have elsewhere : Elsewhere l .audience s s' := .of_executed executed rfl
    obtain ⟨sizes, stored, rfl⟩ := execute_hset.1 executed
    refine of_sizes elsewhere stored (hash?_putHash _ _ _) fun _ absent => ?_
    rw [contains_insert_of_ne text (unborn g rfl), absent]
  | dropSize other =>
    have elsewhere : Elsewhere l .audience s s' := .of_executed executed rfl
    obtain ⟨sizes, stored, rfl⟩ := execute_hdel.1 executed
    exact of_sizes elsewhere stored (hash?_putHash _ _ _) fun _ => contains_erase_of_absent
  | setSize other size =>
    have elsewhere : Elsewhere l .audience s s' := .of_executed executed rfl
    obtain ⟨ids, known, _, written⟩ := execute_setIfLive.1 executed
    split at written
    · next listed =>
      obtain ⟨sizes, stored, rfl⟩ := written
      refine of_sizes elsewhere stored (hash?_putHash _ _ _) fun unlisted absent => ?_
      rw [contains_insert_of_ne _ (ne_of_listed known listed unlisted), absent]
    · rw [written]
      exact refl s
  | addToSize other delta =>
    have elsewhere : Elsewhere l .audience s s' := .of_executed executed rfl
    obtain ⟨ids, known, written⟩ := execute_incrementIfLive.1 executed
    split at written
    · next listed =>
      obtain ⟨sizes, size, stored, _, _, rfl⟩ := written
      refine of_sizes elsewhere stored (hash?_putHash _ _ _) fun unlisted absent => ?_
      rw [contains_insert_of_ne _ (ne_of_listed known listed unlisted), absent]
    · rw [written.2]
      exact refl s

end Sheds

/-- All that a call counts on the others for, and all that it does itself, is that a segment which is not listed
stays away. -/
def shedding (l : Layout) (id : Uuid) : Conduct Server Unit where
  rely := Sheds l id
  step _ s _ s' := Sheds l id s s'
  rely_refl := .refl
  rely_trans := .trans
  idle _ := .refl

variable {minted : Uuid → Prop}

theorem sheds_of_sendsOnly {α : Type} {op : Operation α} (unborn : ∀ g, call = .insertSegment g → g.id ≠ id)
    (only : SendsOnly (l.Sends call) op) :
    Attempt.Secures (serving minted) (shedding l id) op (fun _ _ _ => True) () s :=
  (secures_of_asksOnly only.asks fun _ sent _ _ _ executed => Sheds.of_sends unborn sent executed).mono
    fun _ _ _ _ => trivial

/-- A command of a deletion, with what it brings about and the others keep. -/
theorem send_sheds {P : Server → Prop} (sent : l.Sends (.deleteSegment id) c)
    (ends : ∀ s₁ r s₂, Sheds l id s s₁ → s₁.execute c = .ok (r, s₂) → Sheds l id s₁ s₂ → ∀ s₃, Sheds l id s₂ s₃ → P s₃) :
    Attempt.Secures (serving minted) (shedding l id) (send c) (fun o _ s => (∃ r, o = .ok r) ∧ P s) () s := by
  refine secures_send fun s₁ before r s₂ executed => ?_
  have step : Sheds l id s₁ s₂ := .of_sends (by rintro _ ⟨⟩) sent executed
  exact ⟨(), step, fun s₃ others => ⟨⟨r, rfl⟩, ends s₁ r s₂ before executed step s₃ others⟩⟩

/-- The segment is taken from the listed ones first and then from the sizes, so that no size can come back in
between. -/
theorem deleteSegment_sheds :
    Attempt.Secures (serving minted) (shedding l id) (l.deleteSegment id)
      (fun o _ s => ∀ g, o = .ok (some g) → s.Unsized l id) () s := by
  have looks : SendsOnly (l.Sends (.deleteSegment id)) (l.getSegment id) := getSegment_sends id
  refine Attempt.secures_bind ((sheds_of_sendsOnly (by rintro _ ⟨⟩) looks).mono fun o _ s _ => ?_)
  cases o with
  | error e => rintro _ _ _ ⟨⟩
  | ok found =>
    cases found with
    | none => exact Attempt.secures_pure fun _ _ _ missed => nomatch missed
    | some g =>
      have dropped : Attempt.Secures (serving minted) (shedding l id) (send (.del (l.segmentKey id.text)))
          (fun o _ _ => (∃ r, o = .ok r) ∧ True) () s :=
        send_sheds (.dropSegment id) fun _ _ _ _ _ _ _ _ => trivial
      refine Attempt.secures_bind (dropped.mono ?_)
      rintro _ _ s ⟨⟨_, rfl⟩, -⟩
      have unlisted : Attempt.Secures (serving minted) (shedding l id) (send (.srem l.segmentsKey id.text))
          (fun o _ s => (∃ r, o = .ok r) ∧ s.Unlisted l id) () s :=
        send_sheds (.unlistSegment id) fun _ _ _ _ executed _ _ others => others.unlisted (unlisted_of_srem executed)
      refine Attempt.secures_bind (unlisted.mono ?_)
      rintro _ _ s ⟨⟨_, rfl⟩, unlisted⟩
      have freed : Attempt.Secures (serving minted) (shedding l id) (send (.hdel l.namesKey g.name))
          (fun o _ s => (∃ r, o = .ok r) ∧ s.Unlisted l id) () s :=
        send_sheds (.freeName id g.name) fun _ _ _ before _ step _ others =>
          others.unlisted (step.unlisted (before.unlisted unlisted))
      refine Attempt.secures_bind (freed.mono ?_)
      rintro _ _ s ⟨⟨_, rfl⟩, unlisted⟩
      have cleared : Attempt.Secures (serving minted) (shedding l id) (send (.hdel l.audienceKey id.text))
          (fun o _ s => (∃ r, o = .ok r) ∧ s.Unlisted l id ∧ s.Unsized l id) () s :=
        send_sheds (.dropSize id) fun _ _ _ before executed step _ others =>
          have unlisted := step.unlisted (before.unlisted unlisted)
          ⟨others.unlisted unlisted, others.unsized unlisted (unsized_of_hdel executed)⟩
      refine Attempt.secures_bind (cleared.mono ?_)
      rintro _ _ s ⟨⟨_, rfl⟩, unlisted, unsized⟩
      exact Attempt.secures_pure fun _ others _ _ => others.unsized unlisted unsized

/-- Calls that clients make at the same time, with their outcomes at the end. -/
abbrev Calls := Turns Command Command.Reply Recorded ((call : Store.Call) × Except Error call.Result)

/-- A call as a task over a server. -/
def Layout.callTask (l : Layout) (call : Store.Call) : Action ((call : Store.Call) × Except Error call.Result) :=
  (fun o => ⟨call, o⟩) <$> (l.operation call).run

/-- Calls before the first turn. -/
def Layout.calls (l : Layout) (calls : List Store.Call) (w : World Recorded) : Calls :=
  ⟨calls.map l.callTask, w⟩

/-- A call on the segment that writes its size and nothing else. -/
def Resizes (id : Uuid) (call : Store.Call) : Prop :=
  (∃ size, call = .setAudienceSize id size) ∨ ∃ delta, call = .incrementAudienceSize id delta

/-- Such a call is one command, and that changes nothing once the segment is not listed. -/
theorem Resizes.one_command (resizes : Resizes id call) :
    ∃ (c : Command) (next : c.Reply → Action ((call : Store.Call) × Except Error call.Result)),
      l.callTask call = .ask (.backend c) next ∧ (∀ reply, ∃ o, next reply = .done ⟨call, o⟩) ∧
        ∀ s : Server, s.Unlisted l id →
          ∃ r, s.answer c = (.ok r, s) ∧ next (.ok r) = .done ⟨call, .error (.missing .segment id)⟩ := by
  rcases resizes with ⟨size, rfl⟩ | ⟨delta, rfl⟩
  · refine ⟨.setIfLive l.segmentsKey l.audienceKey id.text size.toInt, _, rfl, fun reply => ?_, ?_⟩
    · rcases reply with refusal | (_ | _) <;> exact ⟨_, rfl⟩
    · rintro s ⟨ids, known, absent⟩
      have executed : s.execute (.setIfLive l.segmentsKey l.audienceKey id.text size.toInt) = .ok (false, s) :=
        execute_setIfLive.2 ⟨ids, known, absent.symm, by rw [absent]; rfl⟩
      exact ⟨false, by rw [answer, executed], rfl⟩
  · refine ⟨.incrementIfLive l.segmentsKey l.audienceKey id.text delta.toInt, _, rfl, fun reply => ?_, ?_⟩
    · rcases reply with refusal | (_ | _) <;> exact ⟨_, rfl⟩
    · rintro s ⟨ids, known, absent⟩
      have executed : s.execute (.incrementIfLive l.segmentsKey l.audienceKey id.text delta.toInt) = .ok (none, s) :=
        execute_incrementIfLive.2 ⟨ids, known, by rw [absent]; exact ⟨rfl, rfl⟩⟩
      exact ⟨none, by rw [answer, executed], rfl⟩

/-- The segment that a call has found and deleted. -/
def deleted? : (call : Store.Call) × Except Error call.Result → Option Uuid
  | ⟨.deleteSegment id, .ok (some _)⟩ => some id
  | _ => none

/-- How a call may end that does not bring the segment in. -/
def Cleared (l : Layout) (id : Uuid) (a : (call : Store.Call) × Except Error call.Result) (s : Server) : Prop :=
  deleted? a = some id → s.Unsized l id

theorem callTask_secures (unborn : ∀ g, call = .insertSegment g → g.id ≠ id) :
    (l.callTask call).Secures (serving fun _ => True) (shedding l id) (fun a _ s => Cleared l id a s) () s := by
  rw [Layout.callTask, map_eq_pure_bind]
  refine Program.Secures.bind ?_
  by_cases deleting : call = .deleteSegment id
  · subst deleting
    refine deleteSegment_sheds.stable.mono fun o v s ends => Program.Secures.pure fun s' others deleted => ?_
    match o with
    | .ok (some g) => exact ends s' others g rfl
    | .ok none | .error e => cases deleted
  · refine (sheds_of_sendsOnly unborn (operation_sends l call)).mono fun o v s _ => ?_
    refine Program.Secures.pure fun s' others deleted => absurd ?_ deleting
    unfold deleted? at deleted
    split at deleted
    · next same =>
      cases same
      exact congrArg _ (Option.some.inj deleted)
    · cases deleted

variable {calls : List Store.Call} {t : Calls} {i : Nat}

/-- What holds between two turns of calls none of which brings the segment in. -/
structure Shed (l : Layout) (id : Uuid) (calls : List Store.Call) (t : Calls) : Prop where
  kept : t.Secured (serving fun _ => True) (fun _ => shedding l id) (fun _ a _ s => Cleared l id a s) (·.state.state)
    (fun _ => True) fun _ => ()
  unlisted : ∀ reply, ⟨.srem l.segmentsKey id.text, reply⟩ ∈ t.world.state.notes → t.world.state.state.Unlisted l id
  whole : ∀ {j c}, calls[j]? = some c → Resizes id c → t.Waits j → t.tasks[j]? = some (l.callTask c)

theorem shed_calls {w : World Recorded} (unnoted : w.state.notes = [])
    (unborn : ∀ g, .insertSegment g ∈ calls → g.id ≠ id) : Shed l id calls (l.calls calls w) where
  kept j _ task found := by
    obtain ⟨c, there, rfl⟩ := Option.map_eq_some_iff.1 (List.getElem?_map.symm.trans found)
    exact callTask_secures fun g same => unborn g (same ▸ List.mem_of_getElem? there)
  unlisted reply noted := by
    change _ ∈ w.state.notes at noted
    rw [unnoted] at noted
    cases noted
  whole there _ _ := by
    rw [Layout.calls, List.getElem?_map, there]
    rfl

namespace Shed

theorem sheds (shed : Shed l id calls t) (accepted : (t.advance recording i).world.state.Accepted) :
    Sheds l id t.world.state.state (t.advance recording i).world.state.state ∧
      (t.advance recording i).Secured (serving fun _ => True) (fun _ => shedding l id) (fun _ a _ s => Cleared l id a s)
        (·.state.state) (fun _ => True) fun _ => () :=
  have ⟨_, step, kept⟩ := shed.kept.advance trivial (fun _ _ turn => answers_of_accepted (fun _ => trivial) accepted turn)
    fun _ _ _ _ _ _ _ step => step
  ⟨step, kept⟩

/-- Once a deletion has unlisted the segment, it stays so. -/
theorem unlisted_advance (shed : Shed l id calls t) (accepted : (t.advance recording i).world.state.Accepted)
    {reply : Except Refusal Unit}
    (noted : ⟨.srem l.segmentsKey id.text, reply⟩ ∈ (t.advance recording i).world.state.notes) :
    (t.advance recording i).world.state.state.Unlisted l id := by
  by_cases before : ⟨.srem l.segmentsKey id.text, reply⟩ ∈ t.world.state.notes
  · exact (shed.sheds accepted).1.unlisted (shed.unlisted reply before)
  · rcases advance_cases recording t i with ⟨e, next, turn⟩ | ⟨_, same⟩
    · have answered : (serving fun _ => True).answers e _ _ _ := answers_of_accepted (fun _ => trivial) accepted turn
      rw [advance_of_ask turn] at noted ⊢
      cases e with
      | now | freshId entity | tally metric amount => exact absurd noted before
      | backend c =>
        obtain ⟨r, _, executed⟩ := answered
        rcases List.mem_append.1 noted with earlier | last
        · exact absurd earlier before
        · cases List.mem_singleton.1 last
          exact unlisted_of_srem executed
    · rw [same] at noted
      exact absurd noted before

theorem advance (shed : Shed l id calls t) (accepted : (t.advance recording i).world.state.Accepted) :
    Shed l id calls (t.advance recording i) := by
  refine ⟨(shed.sheds accepted).2, fun reply => shed.unlisted_advance accepted, fun {j c} there resizes waits => ?_⟩
  by_cases own : j = i
  · subst own
    rcases advance_cases recording t j with ⟨e, next, turn⟩ | ⟨_, same⟩
    · -- The only command of such a call is its last one.
      obtain ⟨command, next, single, ends, _⟩ := resizes.one_command (l := l)
      have turn := (shed.whole there resizes ⟨e, _, turn⟩).trans (congrArg some single)
      obtain ⟨o, last⟩ := ends (World.answer recording (.backend command) t.world).1
      refine absurd waits (not_waits_of_done (a := ⟨c, o⟩) ?_)
      rw [advance_of_ask turn, List.getElem?_set_self (List.getElem?_eq_some_iff.1 turn).1, last]
    · rw [same] at waits ⊢
      exact shed.whole there resizes waits
  · obtain ⟨e, next, asks⟩ := waits
    rw [tasks_advance own] at asks ⊢
    exact shed.whole there resizes ⟨e, next, asks⟩

end Shed

theorem shed_after {w : World Recorded} (unnoted : w.state.notes = [])
    (unborn : ∀ g, .insertSegment g ∈ calls → g.id ≠ id) (schedule : List Nat)
    (accepted : (Turns.after recording schedule (l.calls calls w)).world.state.Accepted) :
    Shed l id calls (Turns.after recording schedule (l.calls calls w)) := by
  induction schedule using List.reverseRecOn with
  | nil => exact shed_calls unnoted unborn
  | append_singleton schedule i ih =>
    rw [after_concat] at accepted ⊢
    exact (ih accepted.of_advance).advance accepted

/-- However the commands of calls are interleaved none of which brings the segment in, as long as no command is
refused: after a deletion has found the segment and come to its end, the segment has no size in any state, and a call
that is to write its size after a deletion has unlisted it misses the segment and changes nothing. -/
theorem deleted_size_stays_gone {w : World Recorded} {schedule : List Nat} (unnoted : w.state.notes = [])
    (unborn : ∀ g, .insertSegment g ∈ calls → g.id ≠ id)
    (accepted : (Turns.after recording schedule (l.calls calls w)).world.state.Accepted) :
    let t := Turns.after recording schedule (l.calls calls w)
    (∀ (i : Nat) a, t.tasks[i]? = some (.done a) → deleted? a = some id → t.world.state.state.Unsized l id) ∧
    ∀ reply, ⟨.srem l.segmentsKey id.text, reply⟩ ∈ t.world.state.notes →
      ∀ (j : Nat) (c : Store.Call), calls[j]? = some c → Resizes id c → t.Waits j →
        (t.advance recording j).tasks[j]? = some (.done ⟨c, .error (.missing .segment id)⟩) ∧
        (t.advance recording j).world.state.state = t.world.state.state := by
  intro t
  have shed : Shed l id calls t := shed_after unnoted unborn schedule accepted
  refine ⟨fun i a done => (shed.kept i trivial _ done).ended, fun reply noted j c there resizes waits => ?_⟩
  obtain ⟨command, next, single, _, refused⟩ := resizes.one_command (l := l)
  have turn := (shed.whole there resizes waits).trans (congrArg some single)
  obtain ⟨r, answered, last⟩ := refused _ (shed.unlisted reply noted)
  have first : (World.answer recording (.backend command) t.world).1 = .ok r := congrArg Prod.fst answered
  have same : (World.answer recording (.backend command) t.world).2.state.state = t.world.state.state :=
    congrArg Prod.snd answered
  rw [advance_of_ask turn]
  refine ⟨?_, same⟩
  rw [List.getElem?_set_self (List.getElem?_eq_some_iff.1 turn).1, ← last]
  exact congrArg (fun reply => some (next reply)) first

/-- A server with one segment of size three. -/
def three : World Recorded :=
  .start
    ⟨.ofList
      [("p:audience", .hash (.ofList [("00000000-0000-0000-0000-000000000001", "3")])),
        ("p:segment:00000000-0000-0000-0000-000000000001",
          .string "\x7b\"id\":\"00000000-0000-0000-0000-000000000001\",\"name\":\"Regulars\",\"createdAt\":\"1970-01-01T00:00:00Z\",\"updatedAt\":\"1970-01-01T00:00:00Z\",\"createdBy\":\"ops\"\x7d"),
        ("p:segment_names", .hash (.ofList [("Regulars", "00000000-0000-0000-0000-000000000001")])),
        ("p:segments", .set (.ofList [("00000000-0000-0000-0000-000000000001", ())]))],
      []⟩
    (fun _ => .epoch) Uuid.counting

/-- The segment is deleted while others change its size and rename it. -/
def closing : List Store.Call :=
  [.deleteSegment (.counting 1), .incrementAudienceSize (.counting 1) 1, .setAudienceSize (.counting 1) 9,
    .updateSegment (bare (.counting 1) "Lapsed"), .incrementAudienceSize (.counting 1) (-1)]

/-- The first of the others counts before the segment is unlisted, the last one does not get a turn. -/
def closingTurns : List Nat :=
  [0, 0, 3, 0, 1, 0, 2, 3, 3, 0, 0, 3]

/-- The calls after these turns. -/
def closed : Calls :=
  Turns.after recording closingTurns (Layout.calls ⟨"p", 1⟩ closing three)

theorem deleted_size_stays_gone_closing :
    closed.world.state.Accepted ∧ closed.world.state.state.Unsized ⟨"p", 1⟩ (.counting 1) ∧
      closed.Waits 4 ∧
        (closed.advance recording 4).tasks[4]? =
          some (.done ⟨.incrementAudienceSize (.counting 1) (-1), .error (.missing .segment (.counting 1))⟩) := by
  have run : closed.world.state.Accepted ∧
      ((closed.tasks[0]?).bind Program.result?).bind deleted? = some (.counting 1) ∧
        closed.world.state.notes.any (·.1 = .srem "p:segments" "00000000-0000-0000-0000-000000000001") ∧
          ((closed.tasks[4]?).bind Program.result?).isNone := by decide +kernel
  unfold closed at run ⊢
  obtain ⟨accepted, ended, unlisted, unended⟩ := run
  have waits : Waits (after recording closingTurns (Layout.calls ⟨"p", 1⟩ closing three)) 4 := by
    by_contra quiet
    obtain ⟨a, done⟩ := exists_done (Nat.lt_of_lt_of_eq (by decide) (length_after _).symm) quiet
    rw [done] at unended
    cases unended
  obtain ⟨a, ended, deleted⟩ := Option.bind_eq_some_iff.1 ended
  obtain ⟨task, done, ended⟩ := Option.bind_eq_some_iff.1 ended
  obtain ⟨⟨_, reply⟩, noted, same⟩ := List.any_eq_true.1 unlisted
  cases of_decide_eq_true same
  cases task with
  | ask e next => cases ended
  | done b =>
    cases ended
    have unborn : ∀ g, .insertSegment g ∈ closing → g.id ≠ .counting 1 := by simp [closing]
    obtain ⟨gone, refused⟩ :=
      @deleted_size_stays_gone ⟨"p", 1⟩ (.counting 1) closing three closingTurns rfl unborn accepted
    exact ⟨accepted, gone 0 a done deleted, waits, (refused reply noted 4 _ rfl (.inr ⟨-1, rfl⟩) waits).1⟩

end CustomerSegments.Redis
