import CustomerSegments.Service.Run

namespace CustomerSegments

/-- A supply of identifiers that counts upwards. -/
def Uuid.counting (n : Nat) : Uuid :=
  ⟨n % 340282366920938463463374607431768211456, Nat.mod_lt _ (by decide)⟩

namespace World

variable {σ : Type}

/-- One reading of the clock later. -/
def tick (w : World σ) : World σ :=
  { w with readings := w.readings + 1 }

/-- The state after a request to the backend, which takes one reading of the clock. -/
def next (w : World σ) (state : σ) : World σ :=
  { w.tick with state := state }

/-- The world after the next identifier is handed out. -/
def issue (entity : Entity) (w : World σ) : World σ :=
  { w with issued := (entity, w.supply w.issued.length) :: w.issued }

/-- The world after a note in the counts. -/
def note (metric : Metric) (amount : Nat) (w : World σ) : World σ :=
  { w with tallies := (metric, amount) :: w.tallies }

/-- A world that can come after another one, whatever happened to the state in between. -/
structure Follows (w w' : World σ) : Prop where
  clock : w'.clock = w.clock
  supply : w'.supply = w.supply
  readings : w.readings ≤ w'.readings
  issued : w.issued <:+ w'.issued

theorem Follows.refl (w : World σ) : w.Follows w :=
  ⟨rfl, rfl, Nat.le_refl _, List.suffix_rfl⟩

theorem Follows.trans {w mid w' : World σ} (first : w.Follows mid) (rest : mid.Follows w') : w.Follows w' :=
  ⟨rest.clock.trans first.clock, rest.supply.trans first.supply, Nat.le_trans first.readings rest.readings,
    first.issued.trans rest.issued⟩

theorem answer_follows {R : Type} {A : R → Type} (backend : (r : R) → Instant → σ → A r × σ)
    (e : Effect R) (w : World σ) : w.Follows (World.answer backend e w).2 := by
  cases e with
  | now => exact ⟨rfl, rfl, Nat.le_succ _, List.suffix_rfl⟩
  | freshId entity => exact ⟨rfl, rfl, Nat.le_refl _, List.suffix_cons _ _⟩
  | tally metric amount => exact ⟨rfl, rfl, Nat.le_refl _, List.suffix_rfl⟩
  | backend r => exact ⟨rfl, rfl, Nat.le_succ _, List.suffix_rfl⟩

/-- A run never turns the clock back and never takes an identifier back. -/
theorem run_follows {R : Type} {A : R → Type} {α : Type} (backend : (r : R) → Instant → σ → A r × σ)
    (task : Task R A α) (w : World σ) : w.Follows (World.run backend task w).2 := by
  induction task generalizing w with
  | done a => exact .refl w
  | ask e rest ih => exact (answer_follows backend e w).trans (ih _ _)

end World

namespace Service

open Store

variable {failing : List Method} {α β : Type} {w w' : World Memory}

@[simp]
theorem runInMemory_pure (a : α) : runInMemory failing (pure a) w = (a, w) := rfl

@[simp]
theorem runInMemory_bind (task : Action α) (rest : α → Action β) :
    runInMemory failing (task >>= rest) w =
      runInMemory failing (rest (runInMemory failing task w).1) (runInMemory failing task w).2 := by
  simp only [runInMemory, withFailing, Task.onBackend, Program.expand_bind, World.run_bind]

@[simp]
theorem runInMemory_tally (metric : Metric) (amount : Nat) :
    runInMemory failing (Task.tally metric amount) w = ((), w.note metric amount) := rfl

/-- A call of a failing method leaves the store alone. -/
theorem runInMemory_call (c : Call) (w : World Memory) :
    runInMemory failing (call c).run w =
      if c.method ∈ failing then (.error (.store .unavailable), w)
      else ((Memory.answer c (w.clock w.readings) w.state).1,
        w.next (Memory.answer c (w.clock w.readings) w.state).2) := by
  have expanded : withFailing failing (call c).run =
      if c.method ∈ failing then pure (.error (.store .unavailable)) else Task.backend c :=
    Program.expand_request _ _
  rw [runInMemory, expanded]
  split <;> rfl

theorem runInMemory_follows (failing : List Method) (task : Action α) (w : World Memory) :
    w.Follows (runInMemory failing task w).2 :=
  World.run_follows _ _ _

/-- An operation ends in an outcome and a world. -/
def Ends (failing : List Method) (op : Operation α) (w : World Memory) (o : Except Error α)
    (w' : World Memory) : Prop :=
  runInMemory failing op.run w = (o, w')

namespace Ends

variable {op : Operation α} {o : Except Error α}

theorem follows (ends : Ends failing op w o w') : w.Follows w' := by
  have := runInMemory_follows failing op.run w
  rwa [show runInMemory failing op.run w = (o, w') from ends] at this

theorem serve (failing : List Method) (r : Request) (w : World Memory) :
    Ends failing r.operation w (serve failing r w).1 (serve failing r w).2 := rfl

theorem pure_iff {a : α} : Ends failing (pure a) w o w' ↔ o = .ok a ∧ w' = w := by
  simp only [Ends, ExceptT.run_pure, runInMemory_pure, Prod.mk.injEq, eq_comm]

theorem throw_iff {e : Error} : Ends failing (throw e : Operation α) w o w' ↔ o = .error e ∧ w' = w := by
  simp only [Ends, ExceptT.run_throw, runInMemory_pure, Prod.mk.injEq, eq_comm]

/-- Either the first part fails and with it the whole, or the rest goes on from where it ended. -/
theorem bind_iff {rest : α → Operation β} {o : Except Error β} :
    Ends failing (op >>= rest) w o w' ↔
      (∃ a mid, Ends failing op w (.ok a) mid ∧ Ends failing (rest a) mid o w') ∨
        ∃ e, Ends failing op w (.error e) w' ∧ o = .error e := by
  unfold Ends
  rw [ExceptT.run_bind, runInMemory_bind]
  cases first : runInMemory failing op.run w with
  | mk outcome mid =>
    cases outcome with
    | ok a =>
      constructor
      · intro run
        exact .inl ⟨a, mid, rfl, run⟩
      · rintro (⟨b, mid', same, run⟩ | ⟨e, same, _⟩)
        · cases same
          exact run
        · cases same
    | error e =>
      constructor
      · intro run
        cases run
        exact .inr ⟨e, rfl, rfl⟩
      · rintro (⟨b, mid', same, _⟩ | ⟨e', same, rfl⟩)
        · cases same
        · cases same
          rfl

theorem settled_iff {outcome : Except Error α} :
    Ends failing (Attempt.settled outcome) w o w' ↔ o = outcome ∧ w' = w := by
  change (outcome, w) = (o, w') ↔ _
  rw [Prod.mk.injEq, eq_comm, eq_comm (a := w)]

theorem sure_iff {task : Action α} :
    Ends failing (Attempt.sure task) w o w' ↔
      o = .ok (runInMemory failing task w).1 ∧ w' = (runInMemory failing task w).2 := by
  have : (Attempt.sure task).run = task >>= fun a => pure (.ok a) := rfl
  rw [Ends, this, runInMemory_bind, runInMemory_pure, Prod.mk.injEq, eq_comm, eq_comm (a := w')]

theorem call_iff {c : Call} {o : Except Error c.Result} :
    Ends failing (call c) w o w' ↔
      (c.method ∈ failing ∧ o = .error (.store .unavailable) ∧ w' = w) ∨
        c.method ∉ failing ∧ o = (Memory.answer c (w.clock w.readings) w.state).1 ∧
          w' = w.next (Memory.answer c (w.clock w.readings) w.state).2 := by
  rw [Ends, runInMemory_call]
  by_cases fails : c.method ∈ failing
  · rw [if_pos fails]
    constructor
    · rintro ⟨⟩
      exact .inl ⟨fails, rfl, rfl⟩
    · rintro (⟨_, rfl, rfl⟩ | ⟨works, _⟩)
      · rfl
      · exact absurd fails works
  · rw [if_neg fails]
    constructor
    · rintro ⟨⟩
      exact .inr ⟨fails, rfl, rfl⟩
    · rintro (⟨absent, _⟩ | ⟨_, rfl, rfl⟩)
      · exact absurd absent fails
      · rfl

theorem sure_bind_iff {task : Action α} {rest : α → Operation β} {o : Except Error β} :
    Ends failing (Attempt.sure task >>= rest) w o w' ↔
      Ends failing (rest (runInMemory failing task w).1) (runInMemory failing task w).2 o w' := by
  rw [bind_iff]
  constructor
  · rintro (⟨a, mid, first, ends⟩ | ⟨e, first, _⟩)
    · obtain ⟨same, rfl⟩ := sure_iff.1 first
      cases same
      exact ends
    · cases (sure_iff.1 first).1
  · intro ends
    exact .inl ⟨_, _, sure_iff.2 ⟨rfl, rfl⟩, ends⟩

theorem now_bind_iff {rest : Instant → Operation β} {o : Except Error β} :
    Ends failing (Attempt.now >>= rest) w o w' ↔ Ends failing (rest (w.clock w.readings)) w.tick o w' :=
  sure_bind_iff

theorem freshId_bind_iff {entity : Entity} {rest : Uuid → Operation β} {o : Except Error β} :
    Ends failing (Attempt.freshId entity >>= rest) w o w' ↔
      Ends failing (rest (w.supply w.issued.length)) (w.issue entity) o w' :=
  sure_bind_iff

theorem throw_bind_iff {e : Error} {rest : α → Operation β} {o : Except Error β} :
    Ends failing ((throw e : Operation α) >>= rest) w o w' ↔ o = .error e ∧ w' = w := by
  rw [bind_iff]
  constructor
  · rintro (⟨a, mid, first, _⟩ | ⟨e', first, same⟩)
    · cases (throw_iff.1 first).1
    · obtain ⟨thrown, rfl⟩ := throw_iff.1 first
      cases thrown
      exact ⟨same, rfl⟩
  · rintro ⟨rfl, rfl⟩
    exact .inr ⟨e, throw_iff.2 ⟨rfl, rfl⟩, rfl⟩

theorem settled_bind_iff {outcome : Except Error α} {rest : α → Operation β} {o : Except Error β} :
    Ends failing (Attempt.settled outcome >>= rest) w o w' ↔
      (∃ a, outcome = .ok a ∧ Ends failing (rest a) w o w') ∨ ∃ e, outcome = .error e ∧ o = .error e ∧ w' = w := by
  rw [bind_iff]
  constructor
  · rintro (⟨a, mid, first, ends⟩ | ⟨e, first, same⟩)
    · obtain ⟨same, rfl⟩ := settled_iff.1 first
      exact .inl ⟨a, same.symm, ends⟩
    · obtain ⟨failed, rfl⟩ := settled_iff.1 first
      exact .inr ⟨e, failed.symm, same, rfl⟩
  · rintro (⟨a, same, ends⟩ | ⟨e, failed, same, rfl⟩)
    · exact .inl ⟨a, w, settled_iff.2 ⟨same.symm, rfl⟩, ends⟩
    · exact .inr ⟨e, settled_iff.2 ⟨failed.symm, rfl⟩, same⟩

/-- The rest after a call sees its answer and the store it left behind. -/
theorem call_bind_iff {c : Call} {rest : c.Result → Operation β} {o : Except Error β} :
    Ends failing (call c >>= rest) w o w' ↔
      (c.method ∈ failing ∧ o = .error (.store .unavailable) ∧ w' = w) ∨
        c.method ∉ failing ∧
          ((∃ a, (Memory.answer c (w.clock w.readings) w.state).1 = .ok a ∧
              Ends failing (rest a) (w.next (Memory.answer c (w.clock w.readings) w.state).2) o w') ∨
            ∃ e, (Memory.answer c (w.clock w.readings) w.state).1 = .error e ∧ o = .error e ∧
              w' = w.next (Memory.answer c (w.clock w.readings) w.state).2) := by
  rw [bind_iff]
  constructor
  · rintro (⟨a, mid, first, ends⟩ | ⟨e, first, rfl⟩)
    · rcases call_iff.1 first with ⟨_, absent, _⟩ | ⟨works, answered, rfl⟩
      · cases absent
      · exact .inr ⟨works, .inl ⟨a, answered.symm, ends⟩⟩
    · rcases call_iff.1 first with ⟨fails, unavailable, rfl⟩ | ⟨works, answered, rfl⟩
      · cases unavailable
        exact .inl ⟨fails, rfl, rfl⟩
      · exact .inr ⟨works, .inr ⟨e, answered.symm, rfl, rfl⟩⟩
  · rintro (⟨fails, rfl, rfl⟩ | ⟨works, ⟨a, answered, ends⟩ | ⟨e, answered, rfl, rfl⟩⟩)
    · exact .inr ⟨_, call_iff.2 (.inl ⟨fails, rfl, rfl⟩), rfl⟩
    · exact .inl ⟨a, _, call_iff.2 (.inr ⟨works, answered.symm, rfl⟩), ends⟩
    · exact .inr ⟨e, call_iff.2 (.inr ⟨works, answered.symm, rfl⟩), rfl⟩

end Ends

end Service

end CustomerSegments
