import CustomerSegments.Proofs.Calls
import CustomerSegments.Proofs.CommandEffects
import CustomerSegments.Proofs.ServerRuns

namespace CustomerSegments

theorem Program.AsksOnly.mono {R : Type} {A : R → Type} {α : Type} {P Q : R → Prop} {task : Program R A α}
    (only : task.AsksOnly P) (wider : ∀ r, P r → Q r) : task.AsksOnly Q := by
  induction task with
  | done a => trivial
  | ask r next ih => exact ⟨wider r only.1, fun answer => ih answer (only.2 answer)⟩

namespace Redis

/-- An operation all of whose commands have a property. -/
structure SendsOnly {α : Type} (P : Command → Prop) (op : Operation α) : Prop where
  asks : op.run.AsksOnly (Effect.Within P)

namespace SendsOnly

variable {P : Command → Prop} {α β : Type} {op : Operation α}

theorem pure (a : α) : SendsOnly P (Pure.pure a) :=
  ⟨Program.asksOnly_pure _⟩

theorem throw (e : Error) : SendsOnly P (MonadExcept.throw e : Operation α) :=
  ⟨Program.asksOnly_pure _⟩

theorem settled (outcome : Except Error α) : SendsOnly P (Attempt.settled outcome) :=
  ⟨Program.asksOnly_pure _⟩

theorem now : SendsOnly P Attempt.now :=
  ⟨.bind (Program.asksOnly_request trivial) fun _ => Program.asksOnly_pure _⟩

theorem send {c : Command} (allowed : P c) : SendsOnly P (Redis.send c) := by
  refine ⟨.bind (Program.asksOnly_request allowed) fun reply => ?_⟩
  cases reply with
  | ok result => exact Program.asksOnly_pure _
  | error refusal => exact Program.asksOnly_pure _

theorem bind {next : α → Operation β} (first : SendsOnly P op) (later : ∀ a, SendsOnly P (next a)) :
    SendsOnly P (op >>= next) := by
  refine ⟨first.asks.bind fun outcome => ?_⟩
  cases outcome with
  | ok a => exact (later a).asks
  | error e => exact Program.asksOnly_pure _

theorem map (f : α → β) (first : SendsOnly P op) : SendsOnly P (f <$> op) := by
  rw [map_eq_pure_bind]
  exact first.bind fun a => pure (f a)

end SendsOnly

/-- A task all of whose commands are steps of a conduct keeps to it, and its private value stays. -/
theorem secures_of_asksOnly {ι α : Type} {P : Command → Prop} {minted : Uuid → Prop} {conduct : Conduct Server ι} {v : ι}
    {s : Server} {task : Action α} (only : task.AsksOnly (Effect.Within P))
    (steps : ∀ c, P c → ∀ s r s', s.execute c = .ok (r, s') → conduct.step v s v s') :
    task.Secures (serving minted) conduct (fun _ v' _ => v' = v) v s := by
  induction task generalizing s with
  | done a => exact Program.Secures.pure fun _ _ => rfl
  | ask e next ih =>
    refine Program.Secures.ask fun s' others a s'' answered => ⟨v, ?_, ih a (only.2 a)⟩
    cases e with
    | now | tally metric amount =>
      rw [show s'' = s' from answered]
      exact conduct.idle v s'
    | freshId entity =>
      rw [show s'' = s' from answered.2]
      exact conduct.idle v s'
    | backend c =>
      obtain ⟨r, _, executed⟩ := answered
      exact steps c only.1 s' r s'' executed

/-- A task over a store sends what its calls send. -/
theorem realize_asksOnly {α : Type} {l : Layout} {P : Command → Prop} {Q : Store.Call → Prop} {task : Store.Action α}
    (sends : ∀ call, Q call → SendsOnly P (l.operation call)) (only : task.AsksOnly (Effect.Within Q)) :
    (l.realize task).AsksOnly (Effect.Within P) := by
  induction task with
  | done a => trivial
  | ask e next ih =>
    refine Program.AsksOnly.bind ?_ fun a => ih a (only.2 a)
    cases e with
    | now | freshId entity | tally metric amount => exact Program.asksOnly_request trivial
    | backend call => exact (sends call only.1).asks

/-- The commands that a call can send: any that write nothing, and the writes that it is made of. -/
inductive Layout.Sends (l : Layout) : Store.Call → Command → Prop
  | read {call : Store.Call} {c : Command} (unwritten : c.written = []) : l.Sends call c
  | storeCustomer (c : Customer) : l.Sends (.insertCustomer c) (.set (l.customerKey c.id.text) c.text)
  | listCustomer (c : Customer) : l.Sends (.insertCustomer c) (.sadd l.customersKey c.id.text)
  | replaceCustomer (c : Customer) : l.Sends (.updateCustomer c) (.set (l.customerKey c.id.text) c.text)
  | dropCustomer (id : Uuid) : l.Sends (.deleteCustomer id) (.del (l.customerKey id.text))
  | unlistCustomer (id : Uuid) : l.Sends (.deleteCustomer id) (.srem l.customersKey id.text)
  | swapCustomer (segment customer : Uuid) (expected replacement : String) :
      l.Sends (.removeSegmentFromAll segment) (.compareAndSet (l.customerKey customer.text) expected replacement)
  | claimName (g : Segment) : l.Sends (.insertSegment g) (.hsetnx l.namesKey g.name g.id.text)
  | storeSegment (g : Segment) : l.Sends (.insertSegment g) (.set (l.segmentKey g.id.text) g.text)
  | listSegment (g : Segment) : l.Sends (.insertSegment g) (.sadd l.segmentsKey g.id.text)
  | sizeSegment (g : Segment) (text : String) : l.Sends (.insertSegment g) (.hset l.audienceKey g.id.text text)
  | claimNewName (g : Segment) : l.Sends (.updateSegment g) (.hsetnx l.namesKey g.name g.id.text)
  | giveUpName (g : Segment) (name : String) : l.Sends (.updateSegment g) (.hdel l.namesKey name)
  | replaceSegment (g : Segment) : l.Sends (.updateSegment g) (.set (l.segmentKey g.id.text) g.text)
  | dropSegment (id : Uuid) : l.Sends (.deleteSegment id) (.del (l.segmentKey id.text))
  | unlistSegment (id : Uuid) : l.Sends (.deleteSegment id) (.srem l.segmentsKey id.text)
  | freeName (id : Uuid) (name : String) : l.Sends (.deleteSegment id) (.hdel l.namesKey name)
  | dropSize (id : Uuid) : l.Sends (.deleteSegment id) (.hdel l.audienceKey id.text)
  | setSize (id : Uuid) (size : Int64) :
      l.Sends (.setAudienceSize id size) (.setIfLive l.segmentsKey l.audienceKey id.text size.toInt)
  | addToSize (id : Uuid) (delta : Int64) :
      l.Sends (.incrementAudienceSize id delta) (.incrementIfLive l.segmentsKey l.audienceKey id.text delta.toInt)

variable {l : Layout} {call : Store.Call}

theorem look_sends {c : Command} (unwritten : c.written = []) : SendsOnly (l.Sends call) (send c) :=
  .send (.read unwritten)

theorem fetch_sends {α : Type} (d : Json.Decoder α) (key : String) : SendsOnly (l.Sends call) (fetch d key) := by
  refine (look_sends rfl).bind fun text => ?_
  cases text with
  | none => exact .pure none
  | some text => exact (SendsOnly.settled _).map some

theorem loadPages_sends {α : Type} (d : Json.Decoder α) (keys : List (List String)) :
    SendsOnly (l.Sends call) (loadPages d keys) := by
  induction keys with
  | nil => exact .pure []
  | cons page rest ih =>
    refine (look_sends rfl).bind fun texts => (SendsOnly.settled _).bind fun records => ?_
    exact ih.bind fun others => .pure _

theorem listCustomers_sends : SendsOnly (l.Sends call) l.listCustomers :=
  ((look_sends rfl).bind fun _ => loadPages_sends _ _).bind fun _ => .pure _

theorem getSegment_sends (id : Uuid) : SendsOnly (l.Sends call) (l.getSegment id) := by
  refine (fetch_sends _ _).bind fun found => ?_
  cases found with
  | none => exact .pure none
  | some g =>
    refine SendsOnly.bind ((look_sends rfl).bind fun text => ?_) fun size => .pure _
    cases text with
    | none => exact .pure 0
    | some text => exact .settled _

theorem stripSegment_sends (now : Instant) (segment customer : Uuid) (rounds : Nat) :
    SendsOnly (l.Sends (.removeSegmentFromAll segment)) (l.stripSegment now segment customer rounds) := by
  induction rounds with
  | zero => exact .throw _
  | succ rounds ih =>
    refine (look_sends rfl).bind fun text => ?_
    cases text with
    | none => exact .pure false
    | some text =>
      refine (SendsOnly.settled _).bind fun c => ?_
      split
      · refine (SendsOnly.send (.swapCustomer segment customer _ _)).bind fun swapped => ?_
        split
        · exact .pure true
        · exact ih
      · exact .pure false

theorem stripAll_sends (now : Instant) (segment : Uuid) (customers : List Customer) :
    SendsOnly (l.Sends (.removeSegmentFromAll segment)) (l.stripAll now segment customers) := by
  induction customers with
  | nil => exact .pure 0
  | cons c rest ih =>
    rw [Layout.stripAll]
    split
    · exact (stripSegment_sends now segment c.id Layout.swapRounds).bind fun stripped => ih.bind fun others => .pure _
    · exact (SendsOnly.pure false).bind fun stripped => ih.bind fun others => .pure _

theorem updateSegment_sends (g : Segment) : SendsOnly (l.Sends (.updateSegment g)) (l.updateSegment g) := by
  have written : SendsOnly (l.Sends (.updateSegment g)) (put (l.segmentKey g.id.text) g.text) :=
    .send (.replaceSegment g)
  refine (fetch_sends _ _).bind fun found => ?_
  cases found with
  | none => exact .throw _
  | some old =>
    dsimp only
    split
    · refine SendsOnly.bind ((SendsOnly.send (.claimNewName g)).bind fun claimed => ?_) fun _ => written
      cases claimed with
      | true => exact .send (.giveUpName g _)
      | false =>
        refine (look_sends rfl).bind fun owner => ?_
        split
        · exact (SendsOnly.throw _).bind fun _ => .send (.giveUpName g _)
        · exact .send (.giveUpName g _)
    · exact written

theorem deleteSegment_sends (id : Uuid) : SendsOnly (l.Sends (.deleteSegment id)) (l.deleteSegment id) := by
  refine (getSegment_sends id).bind fun found => ?_
  cases found with
  | none => exact .pure none
  | some g =>
    refine (SendsOnly.send (.dropSegment id)).bind fun _ => (SendsOnly.send (.unlistSegment id)).bind fun _ => ?_
    exact (SendsOnly.send (.freeName id g.name)).bind fun _ => (SendsOnly.send (.dropSize id)).bind fun _ => .pure _

/-- A call sends no other commands, whatever the server answers. -/
theorem operation_sends (l : Layout) (call : Store.Call) : SendsOnly (l.Sends call) (l.operation call) := by
  cases call with
  | insertCustomer c => exact (SendsOnly.send (.storeCustomer c)).bind fun _ => .send (.listCustomer c)
  | getCustomer id => exact fetch_sends _ _
  | updateCustomer c =>
    refine (look_sends rfl).bind fun present => ?_
    split
    · exact .send (.replaceCustomer c)
    · exact .throw _
  | deleteCustomer id =>
    refine (fetch_sends _ _).bind fun found => ?_
    cases found with
    | none => exact .pure none
    | some c =>
      exact (SendsOnly.send (.dropCustomer id)).bind fun _ => (SendsOnly.send (.unlistCustomer id)).bind fun _ => .pure _
  | listCustomers => exact listCustomers_sends
  | countMatching p => exact listCustomers_sends.bind fun _ => .pure _
  | removeSegmentFromAll segment =>
    exact SendsOnly.now.bind fun now => listCustomers_sends.bind fun _ => stripAll_sends now segment _
  | insertSegment g =>
    refine (SendsOnly.send (.claimName g)).bind fun claimed => ?_
    split
    · refine (SendsOnly.send (.storeSegment g)).bind fun _ => (SendsOnly.send (.listSegment g)).bind fun _ => ?_
      exact .send (.sizeSegment g _)
    · exact .throw _
  | getSegment id => exact getSegment_sends id
  | findSegmentByName name =>
    refine (look_sends rfl).bind fun owner => ?_
    split
    · exact .pure none
    · exact getSegment_sends _
  | updateSegment g => exact updateSegment_sends g
  | deleteSegment id => exact deleteSegment_sends id
  | listSegments =>
    refine ((look_sends rfl).bind fun _ => loadPages_sends _ _).bind fun segments => ?_
    exact (look_sends rfl).bind fun rows => (SendsOnly.settled _).bind fun sizes => .pure _
  | setAudienceSize id size =>
    refine (SendsOnly.send (.setSize id size)).bind fun written => ?_
    cases written with
    | true => exact .pure ()
    | false => exact .throw _
  | incrementAudienceSize id delta =>
    refine (SendsOnly.send (.addToSize id delta)).bind fun size => ?_
    cases size with
    | none => exact .throw _
    | some size => exact .pure _
  | ping => exact look_sends rfl

/-- What a call can change: nothing else is written for it. -/
def Touches : Store.Call → Slot → Prop
  | .insertCustomer c, slot => slot = .customer c.id ∨ slot = .customers
  | .updateCustomer c, slot => slot = .customer c.id
  | .deleteCustomer id, slot => slot = .customer id ∨ slot = .customers
  | .removeSegmentFromAll _, slot => ∃ id, slot = .customer id
  | .insertSegment g, slot => slot = .names ∨ slot = .segment g.id ∨ slot = .segments ∨ slot = .audience
  | .updateSegment g, slot => slot = .names ∨ slot = .segment g.id
  | .deleteSegment id, slot => slot = .segment id ∨ slot = .segments ∨ slot = .names ∨ slot = .audience
  | .setAudienceSize _ _, slot | .incrementAudienceSize _ _, slot => slot = .audience
  | .getCustomer _, _ | .listCustomers, _ | .countMatching _, _ | .getSegment _, _ | .findSegmentByName _, _
  | .listSegments, _ | .ping, _ => False

theorem Layout.Sends.touches {c : Command} (sends : l.Sends call c) :
    c.written = [] ∨ ∃ slot, Touches call slot ∧ c.written = [l.key slot] := by
  cases sends with
  | read unwritten => exact .inl unwritten
  | storeCustomer c => exact .inr ⟨.customer c.id, .inl rfl, rfl⟩
  | listCustomer c => exact .inr ⟨.customers, .inr rfl, rfl⟩
  | replaceCustomer c => exact .inr ⟨.customer c.id, rfl, rfl⟩
  | dropCustomer id => exact .inr ⟨.customer id, .inl rfl, rfl⟩
  | unlistCustomer id => exact .inr ⟨.customers, .inr rfl, rfl⟩
  | swapCustomer segment customer expected replacement => exact .inr ⟨.customer customer, ⟨customer, rfl⟩, rfl⟩
  | claimName g => exact .inr ⟨.names, .inl rfl, rfl⟩
  | storeSegment g => exact .inr ⟨.segment g.id, .inr (.inl rfl), rfl⟩
  | listSegment g => exact .inr ⟨.segments, .inr (.inr (.inl rfl)), rfl⟩
  | sizeSegment g text => exact .inr ⟨.audience, .inr (.inr (.inr rfl)), rfl⟩
  | claimNewName g => exact .inr ⟨.names, .inl rfl, rfl⟩
  | giveUpName g name => exact .inr ⟨.names, .inl rfl, rfl⟩
  | replaceSegment g => exact .inr ⟨.segment g.id, .inr rfl, rfl⟩
  | dropSegment id => exact .inr ⟨.segment id, .inl rfl, rfl⟩
  | unlistSegment id => exact .inr ⟨.segments, .inr (.inl rfl), rfl⟩
  | freeName id name => exact .inr ⟨.names, .inr (.inr (.inl rfl)), rfl⟩
  | dropSize id => exact .inr ⟨.audience, .inr (.inr (.inr rfl)), rfl⟩
  | setSize id size => exact .inr ⟨.audience, rfl, rfl⟩
  | addToSize id delta => exact .inr ⟨.audience, rfl, rfl⟩

/-- A task that writes to a key with none of its commands leaves the entry of the key alone. -/
theorem Server.run_keeps {α : Type} {task : Action α} {key : String}
    (only : task.AsksOnly (Effect.Within fun c => key ∉ c.written)) (w : World Server) :
    (Server.run task w).2.state.get? key = w.state.get? key := by
  induction task generalizing w with
  | done a => rfl
  | ask e next ih =>
    refine (ih _ (only.2 _) _).trans ?_
    cases e with
    | now | freshId entity | tally metric amount => rfl
    | backend c =>
      change (w.state.answer c).2.get? key = _
      rw [Server.answer]
      cases executed : w.state.execute c with
      | ok reply => exact Server.execute_keeps executed only.1
      | error refusal => rfl

/-- So does a task over a store, if none of its calls touches what the key is for. -/
theorem Server.run_realize_keeps {α : Type} {task : Store.Action α} {P : Store.Call → Prop} {key : String}
    (only : task.AsksOnly (Effect.Within P)) (spares : ∀ call, P call → ∀ slot, Touches call slot → key ≠ l.key slot)
    (w : World Server) : (Server.run (l.realize task) w).2.state.get? key = w.state.get? key := by
  refine Server.run_keeps (realize_asksOnly (fun call allowed => ⟨?_⟩) only) w
  refine (operation_sends l call).asks.mono fun e within => ?_
  cases e with
  | now | freshId entity | tally metric amount => trivial
  | backend c =>
    change key ∉ c.written
    rcases Layout.Sends.touches within with none | ⟨slot, touches, one⟩
    · rw [none]
      exact List.not_mem_nil
    · rw [one, List.mem_singleton]
      exact spares call allowed slot touches

end Redis

end CustomerSegments
