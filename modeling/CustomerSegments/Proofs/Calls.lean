import CustomerSegments.Proofs.InMemory

namespace CustomerSegments

namespace Program

variable {R : Type} {A : R → Type} {α β : Type} {P : R → Prop}

/-- A program whose requests all have a property, whatever answers it gets. -/
def AsksOnly (P : R → Prop) : Program R A α → Prop
  | done _ => True
  | ask r rest => P r ∧ ∀ answer, (rest answer).AsksOnly P

theorem asksOnly_pure (a : α) : (pure a : Program R A α).AsksOnly P := trivial

theorem asksOnly_request {r : R} (asked : P r) : (request r : Program R A (A r)).AsksOnly P :=
  ⟨asked, fun _ => trivial⟩

theorem AsksOnly.bind {task : Program R A α} {rest : α → Program R A β} (first : task.AsksOnly P)
    (later : ∀ a, (rest a).AsksOnly P) : (task >>= rest).AsksOnly P := by
  change (Program.bind task rest).AsksOnly P
  induction task with
  | done a => exact later a
  | ask r next ih => exact ⟨first.1, fun answer => ih answer (first.2 answer)⟩

end Program

/-- A request that is none to the backend, or one with a property. -/
def Effect.Within {R : Type} (P : R → Prop) : Effect R → Prop
  | now | freshId _ | tally _ _ => True
  | backend r => P r

namespace Service

open Store

variable {P : Call → Prop} {α β : Type}

/-- An operation all of whose calls have a property. -/
structure CallsOnly (P : Call → Prop) (op : Operation α) : Prop where
  asks : op.run.AsksOnly (Effect.Within P)

namespace CallsOnly

theorem pure (a : α) : CallsOnly P (Pure.pure a) :=
  ⟨Program.asksOnly_pure _⟩

theorem throw (e : Error) : CallsOnly P (MonadExcept.throw e : Operation α) :=
  ⟨Program.asksOnly_pure _⟩

theorem settled (outcome : Except Error α) : CallsOnly P (Attempt.settled outcome) :=
  ⟨Program.asksOnly_pure _⟩

theorem call {c : Call} (allowed : P c) : CallsOnly P (Store.call c) :=
  ⟨Program.asksOnly_request allowed⟩

theorem sure {task : Action α} (only : task.AsksOnly (Effect.Within P)) : CallsOnly P (Attempt.sure task) :=
  ⟨only.bind fun _ => Program.asksOnly_pure _⟩

theorem now : CallsOnly P Attempt.now :=
  sure (Program.asksOnly_request trivial)

theorem freshId (entity : Entity) : CallsOnly P (Attempt.freshId entity) :=
  sure (Program.asksOnly_request trivial)

theorem tally (metric : Metric) (amount : Nat) :
    (Task.tally metric amount : Action Unit).AsksOnly (Effect.Within P) :=
  Program.asksOnly_request trivial

theorem bind {op : Operation α} {rest : α → Operation β} (first : CallsOnly P op)
    (later : ∀ a, CallsOnly P (rest a)) : CallsOnly P (op >>= rest) := by
  refine ⟨first.asks.bind fun outcome => ?_⟩
  cases outcome with
  | ok a => exact (later a).asks
  | error e => exact Program.asksOnly_pure _

end CallsOnly

/-- What every allowed call does to the store, and what composes, a whole task does. -/
theorem runInMemory_related {R : Memory → Memory → Prop} (same : ∀ m, R m m)
    (composed : ∀ m m' m'', R m m' → R m' m'' → R m m'')
    (step : ∀ c now m, P c → R m (Memory.answer c now m).2) (failing : List Method) {task : Action α}
    (only : task.AsksOnly (Effect.Within P)) (w : World Memory) :
    R w.state (runInMemory failing task w).2.state := by
  induction task generalizing w with
  | done a => exact same _
  | ask e rest ih =>
    have unfolded : runInMemory failing (.ask e rest) w =
        runInMemory failing (.ask e .done >>= rest) w := rfl
    rw [unfolded, runInMemory_bind]
    refine composed _ _ _ ?_ (ih _ (only.2 _) _)
    cases e with
    | now | freshId entity | tally metric amount => exact same _
    | backend c =>
      have alone : runInMemory failing (.ask (.backend c) .done) w = runInMemory failing (call c).run w := rfl
      rw [alone, runInMemory_call]
      split
      · exact same _
      · exact step c _ _ only.1

theorem Ends.related {R : Memory → Memory → Prop} (same : ∀ m, R m m)
    (composed : ∀ m m' m'', R m m' → R m' m'' → R m m'')
    (step : ∀ c now m, P c → R m (Memory.answer c now m).2) {failing : List Method} {op : Operation α}
    {w w' : World Memory} {o : Except Error α} (only : CallsOnly P op) (ends : Ends failing op w o w') :
    R w.state w'.state := by
  have := runInMemory_related same composed step failing only.asks w
  rwa [show runInMemory failing op.run w = (o, w') from ends] at this

end Service

end CustomerSegments
