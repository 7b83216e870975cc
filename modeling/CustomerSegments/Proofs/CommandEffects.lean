import CustomerSegments.Proofs.Conduct
import CustomerSegments.Proofs.Slots
import CustomerSegments.Redis.Store

namespace CustomerSegments.Redis

theorem bind_eq_ok {ε α β : Type} {x : Except ε α} {f : α → Except ε β} {b : β} :
    x >>= f = .ok b ↔ ∃ a, x = .ok a ∧ f a = .ok b := by
  cases x with
  | ok a => exact ⟨fun same => ⟨a, rfl, same⟩, fun ⟨_, first, same⟩ => Except.ok.inj first ▸ same⟩
  | error e => exact ⟨nofun, fun ⟨_, first, _⟩ => nomatch first⟩

/-- The keys whose entries a command can change. -/
def Command.written : Command → List String
  | .ping | .get _ | .contains _ | .mget _ | .smembers _ | .hget _ _ | .hgetall _ => []
  | .set key _ | .del key | .sadd key _ | .srem key _ | .hset key _ _ | .hsetnx key _ _ | .hdel key _ => [key]
  | .compareAndSet key _ _ => [key]
  | .incrementIfLive _ hash _ _ | .setIfLive _ hash _ _ => [hash]

namespace Server

variable {s s' : Server} {key field value : String}

theorem execute_get {r : Option String} :
    s.execute (.get key) = .ok (r, s') ↔ s.string? key = .ok r ∧ s' = s := by
  rw [execute, bind_eq_ok]
  simp only [Except.ok.injEq, Prod.mk.injEq]
  grind

theorem execute_contains {r : Bool} :
    s.execute (.contains key) = .ok (r, s') ↔ r = Table.contains s key ∧ s' = s := by
  simp only [execute, Except.ok.injEq, Prod.mk.injEq]
  grind

theorem execute_set {r : Unit} :
    s.execute (.set key value) = .ok (r, s') ↔ s' = s.insert key (.string value) := by
  simp only [execute, Except.ok.injEq, Prod.mk.injEq]
  grind

theorem execute_del {r : Unit} : s.execute (.del key) = .ok (r, s') ↔ s' = s.erase key := by
  simp only [execute, Except.ok.injEq, Prod.mk.injEq]
  grind

theorem execute_sadd {element : String} {r : Unit} :
    s.execute (.sadd key element) = .ok (r, s') ↔
      ∃ members, s.set? key = .ok members ∧ s' = s.putSet key (members.insert element ()) := by
  rw [execute, bind_eq_ok]
  simp only [Except.ok.injEq, Prod.mk.injEq]
  grind

theorem execute_srem {element : String} {r : Unit} :
    s.execute (.srem key element) = .ok (r, s') ↔
      ∃ members, s.set? key = .ok members ∧ s' = s.putSet key (members.erase element) := by
  rw [execute, bind_eq_ok]
  simp only [Except.ok.injEq, Prod.mk.injEq]
  grind

theorem execute_hget {r : Option String} :
    s.execute (.hget key field) = .ok (r, s') ↔
      ∃ fields, s.hash? key = .ok fields ∧ r = fields.get? field ∧ s' = s := by
  rw [execute, bind_eq_ok]
  simp only [Except.ok.injEq, Prod.mk.injEq]
  grind

theorem execute_hset {r : Unit} :
    s.execute (.hset key field value) = .ok (r, s') ↔
      ∃ fields, s.hash? key = .ok fields ∧ s' = s.putHash key (fields.insert field value) := by
  rw [execute, bind_eq_ok]
  simp only [setField, bind_eq_ok, Except.ok.injEq, Prod.mk.injEq]
  grind

theorem execute_hdel {r : Unit} :
    s.execute (.hdel key field) = .ok (r, s') ↔
      ∃ fields, s.hash? key = .ok fields ∧ s' = s.putHash key (fields.erase field) := by
  rw [execute, bind_eq_ok]
  simp only [Except.ok.injEq, Prod.mk.injEq]
  grind

/-- A field that is there stays as it is. -/
theorem execute_hsetnx {r : Bool} :
    s.execute (.hsetnx key field value) = .ok (r, s') ↔
      ∃ fields, s.hash? key = .ok fields ∧ r = !fields.contains field ∧
        s' = if fields.contains field then s else s.putHash key (fields.insert field value) := by
  rw [execute, bind_eq_ok]
  refine exists_congr fun fields => and_congr_right fun _ => ?_
  cases fields.contains field <;> simp [eq_comm]

/-- A number is added to a field, and only if the field's name is in the set. -/
theorem execute_incrementIfLive {live : String} {delta : Int} {r : Option Int} :
    s.execute (.incrementIfLive live key field delta) = .ok (r, s') ↔
      ∃ members, s.set? live = .ok members ∧
        if members.contains field then
          ∃ fields size, s.hash? key = .ok fields ∧ added? fields field delta = .ok size ∧
            r = some (throughScript size) ∧
            s' = s.putHash key (fields.insert field (String.ofList (Decimal.ofInt size)))
        else r = none ∧ s' = s := by
  rw [execute, bind_eq_ok]
  refine exists_congr fun members => and_congr_right fun _ => ?_
  cases members.contains field
  · simp [eq_comm]
  · simp only [if_true, bind_eq_ok, Except.ok.injEq, Prod.mk.injEq]
    grind

theorem execute_setIfLive {live : String} {size : Int} {r : Bool} :
    s.execute (.setIfLive live key field size) = .ok (r, s') ↔
      ∃ members, s.set? live = .ok members ∧ r = members.contains field ∧
        if members.contains field then
          ∃ fields, s.hash? key = .ok fields ∧
            s' = s.putHash key (fields.insert field (String.ofList (Decimal.ofInt size)))
        else s' = s := by
  rw [execute, bind_eq_ok]
  refine exists_congr fun members => and_congr_right fun _ => ?_
  cases members.contains field
  · simp [eq_comm]
  · simp only [if_true, bind_eq_ok, setField, Except.ok.injEq, Prod.mk.injEq]
    grind

theorem execute_compareAndSet {expected replacement : String} {r : Bool} :
    s.execute (.compareAndSet key expected replacement) = .ok (r, s') ↔
      ∃ found, s.string? key = .ok found ∧ r = decide (found = some expected) ∧
        s' = if found = some expected then s.insert key (.string replacement) else s := by
  rw [execute, bind_eq_ok]
  refine exists_congr fun found => and_congr_right fun _ => ?_
  split
  · next same => simp [same, eq_comm]
  · next other => simp [other, eq_comm]

/-- A command leaves the other keys alone. -/
theorem execute_keeps {c : Command} {r : c.Result} (executed : s.execute c = .ok (r, s')) {other : String}
    (unwritten : other ∉ c.written) : s'.get? other = s.get? other := by
  have differ {key : String} (unwritten : other ∉ [key]) : key ≠ other := fun same =>
    unwritten (List.mem_singleton.2 same.symm)
  cases c with
  | ping | mget keys =>
    cases executed
    rfl
  | get key => rw [(execute_get.1 executed).2]
  | contains key => rw [(execute_contains.1 executed).2]
  | smembers key =>
    obtain ⟨_, _, same⟩ := bind_eq_ok.1 executed
    cases same
    rfl
  | hget key field =>
    obtain ⟨_, _, _, rfl⟩ := execute_hget.1 executed
    rfl
  | hgetall key =>
    obtain ⟨_, _, same⟩ := bind_eq_ok.1 executed
    cases same
    rfl
  | set key value => rw [execute_set.1 executed, Table.get?_insert, if_neg (differ unwritten)]
  | del key => rw [execute_del.1 executed, Table.get?_erase, if_neg (differ unwritten)]
  | sadd key element =>
    obtain ⟨_, _, rfl⟩ := execute_sadd.1 executed
    exact get?_putSet_of_ne _ (differ unwritten)
  | srem key element =>
    obtain ⟨_, _, rfl⟩ := execute_srem.1 executed
    exact get?_putSet_of_ne _ (differ unwritten)
  | hset key field value =>
    obtain ⟨_, _, rfl⟩ := execute_hset.1 executed
    exact get?_putHash_of_ne _ (differ unwritten)
  | hsetnx key field value =>
    obtain ⟨_, _, _, rfl⟩ := execute_hsetnx.1 executed
    split
    · rfl
    · exact get?_putHash_of_ne _ (differ unwritten)
  | hdel key field =>
    obtain ⟨_, _, rfl⟩ := execute_hdel.1 executed
    exact get?_putHash_of_ne _ (differ unwritten)
  | incrementIfLive live hash field delta =>
    obtain ⟨_, _, written⟩ := execute_incrementIfLive.1 executed
    split at written
    · obtain ⟨_, _, _, _, _, rfl⟩ := written
      exact get?_putHash_of_ne _ (differ unwritten)
    · rw [written.2]
  | setIfLive live hash field size =>
    obtain ⟨_, _, _, written⟩ := execute_setIfLive.1 executed
    split at written
    · obtain ⟨_, _, rfl⟩ := written
      exact get?_putHash_of_ne _ (differ unwritten)
    · rw [written]
  | compareAndSet key expected replacement =>
    obtain ⟨_, _, _, rfl⟩ := execute_compareAndSet.1 executed
    split
    · rw [Table.get?_insert, if_neg (differ unwritten)]
    · rfl

end Server

/-- A server that refuses no command, and identifiers that have a property. -/
def serving (minted : Uuid → Prop) : Provision Command Command.Reply Server where
  minted := minted
  replies c s a s' := ∃ r, a = .ok r ∧ s.execute c = .ok (r, s')

variable {ι : Type} {minted : Uuid → Prop} {conduct : Conduct Server ι} {v : ι} {s : Server}

theorem secures_send {c : Command} {post : Except Error c.Result → ι → Server → Prop}
    (asks : ∀ s', conduct.rely s s' → ∀ r s'', s'.execute c = .ok (r, s'') →
      ∃ v', conduct.step v s' v' s'' ∧ ∀ t, conduct.rely s'' t → post (.ok r) v' t) :
    Attempt.Secures (serving minted) conduct (send c) post v s := by
  refine Program.Secures.ask fun s' others _ s'' answered => ?_
  obtain ⟨r, rfl, executed⟩ := answered
  obtain ⟨v', step, ends⟩ := asks s' others r s'' executed
  exact ⟨v', step, Program.Secures.pure ends⟩

/-- A server and the commands that it was sent, with its replies. -/
abbrev Recorded := Noted Command Command.Reply Server

/-- A server that notes what it is sent. -/
abbrev recording : (c : Command) → Instant → Recorded → c.Reply × Recorded :=
  noting fun c _ s => s.answer c

/-- No command was refused. -/
def Recorded.Accepted (recorded : Recorded) : Prop :=
  ∀ note ∈ recorded.notes, Except.isOk note.2 = true

instance (recorded : Recorded) : Decidable recorded.Accepted :=
  inferInstanceAs (Decidable (∀ note ∈ recorded.notes, Except.isOk note.2 = true))

section

variable {α : Type} {t : Turns Command Command.Reply Recorded α} {i : Nat}

/-- A turn adds at most one note. -/
theorem notes_advance (t : Turns Command Command.Reply Recorded α) (i : Nat) :
    t.world.state.notes <+: (t.advance recording i).world.state.notes := by
  rcases Turns.advance_cases recording t i with ⟨e, next, turn⟩ | ⟨_, same⟩
  · rw [Turns.advance_of_ask turn]
    cases e with
    | now | freshId entity | tally metric amount => exact List.prefix_rfl
    | backend c => exact List.prefix_append _ _
  · simp only [same, List.prefix_rfl]

theorem Recorded.Accepted.of_advance (accepted : Recorded.Accepted (t.advance recording i).world.state) :
    Recorded.Accepted t.world.state :=
  fun note mem => accepted note ((notes_advance t i).subset mem)

/-- While no command is refused, each turn is answered as by a server that refuses none. -/
theorem answers_of_accepted {e : Effect Command} {next : e.Answer Command.Reply → Action α}
    (issued : ∀ n, minted (t.world.supply n)) (accepted : Recorded.Accepted (t.advance recording i).world.state)
    (turn : t.tasks[i]? = some (.ask e next)) :
    (serving minted).answers e t.world.state.state (World.answer recording e t.world).1
      (World.answer recording e t.world).2.state.state := by
  cases e with
  | now | tally metric amount => rfl
  | freshId entity => exact ⟨issued _, rfl⟩
  | backend c =>
    rw [Turns.advance_of_ask turn] at accepted
    have fine : Except.isOk (t.world.state.state.answer c).1 = true :=
      accepted ⟨c, (t.world.state.state.answer c).1⟩ (List.mem_append_right _ List.mem_cons_self)
    change ∃ r, (t.world.state.state.answer c).1 = .ok r ∧
      t.world.state.state.execute c = .ok (r, (t.world.state.state.answer c).2)
    rw [Server.answer] at fine ⊢
    cases executed : t.world.state.state.execute c with
    | ok reply => exact ⟨reply.1, rfl, rfl⟩
    | error refusal =>
      rw [executed] at fine
      cases fine

end

namespace Layout

variable {α β : Type} (l : Layout)

@[simp]
theorem realize_bind (task : Store.Action α) (next : α → Store.Action β) :
    l.realize (task >>= next) = l.realize task >>= fun a => l.realize (next a) :=
  Program.expand_bind _ _ _

@[simp]
theorem realize_call (c : Store.Call) : l.realize (Store.call c).run = (l.operation c).run :=
  Program.expand_request _ _

/-- An operation over a store as an operation over a server that holds its records. -/
def realized (op : Store.Operation α) : Operation α :=
  ExceptT.mk (l.realize op.run)

@[simp]
theorem realized_pure (a : α) : l.realized (pure a) = pure a := rfl

@[simp]
theorem realized_throw (e : Error) : l.realized (throw e : Store.Operation α) = throw e := rfl

@[simp]
theorem realized_settled (outcome : Except Error α) : l.realized (Attempt.settled outcome) = Attempt.settled outcome := rfl

@[simp]
theorem realized_now : l.realized Attempt.now = Attempt.now := rfl

@[simp]
theorem realized_freshId (entity : Entity) : l.realized (Attempt.freshId entity) = Attempt.freshId entity := rfl

@[simp]
theorem realized_call (c : Store.Call) : l.realized (Store.call c) = l.operation c :=
  l.realize_call c

@[simp]
theorem realized_bind (op : Store.Operation α) (next : α → Store.Operation β) :
    l.realized (op >>= next) = l.realized op >>= fun a => l.realized (next a) := by
  refine ExceptT.ext ?_
  rw [ExceptT.run_bind, realized, ExceptT.run_mk, ExceptT.run_bind, realize_bind]
  refine congrArg _ (funext fun outcome => ?_)
  cases outcome <;> rfl

@[simp]
theorem realized_sure (task : Store.Action α) : l.realized (Attempt.sure task) = Attempt.sure (l.realize task) :=
  Program.expand_bind _ _ _

section

variable {l} {op : Store.Operation α} {post : Except Error α → ι → Server → Prop}

theorem secures_bind {next : α → Store.Operation β} {post : Except Error β → ι → Server → Prop}
    (first : Attempt.Secures (serving minted) conduct (l.realized op) (fun o v s => match o with
      | .ok a => Attempt.Secures (serving minted) conduct (l.realized (next a)) post v s
      | .error e => ∀ s', conduct.rely s s' → post (.error e) v s') v s) :
    Attempt.Secures (serving minted) conduct (l.realized (op >>= next)) post v s := by
  rw [realized_bind]
  exact Attempt.secures_bind first

theorem secures_call {c : Store.Call} {post : Except Error c.Result → ι → Server → Prop}
    (ran : Attempt.Secures (serving minted) conduct (l.operation c) post v s) :
    Attempt.Secures (serving minted) conduct (l.realized (Store.call c)) post v s := by
  rw [realized_call]
  exact ran

theorem secures_sure {task : Store.Action α}
    (ran : (l.realize task).Secures (serving minted) conduct (fun a v s => post (.ok a) v s) v s) :
    Attempt.Secures (serving minted) conduct (l.realized (Attempt.sure task)) post v s := by
  rw [realized_sure]
  exact Attempt.secures_sure ran

/-- An operation whose outcome is looked at. -/
theorem secures_outcome {post : Except Error (Except Error α) → ι → Server → Prop}
    (ran : Attempt.Secures (serving minted) conduct (l.realized op) (fun o v s => post (.ok o) v s) v s) :
    Attempt.Secures (serving minted) conduct (l.realized (Attempt.sure op.run)) post v s :=
  secures_sure ran

end

end Layout

end CustomerSegments.Redis
