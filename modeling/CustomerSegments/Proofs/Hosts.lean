import CustomerSegments.Proofs.CommandEffects
import CustomerSegments.Proofs.StoreAgreement

namespace CustomerSegments.Store

open Redis

theorem Call.Agree.refl {c : Call} (a : c.Answer) : c.Agree a a := by
  cases a with
  | error e => rfl
  | ok a => cases c <;> first | rfl | exact ⟨.refl _, rfl⟩

/-- Where the services keep their records: in memory, or on a server that nobody else uses. -/
inductive Host where
  | memory
  | server (l : Layout)

namespace Host

@[reducible]
def State : Host → Type
  | memory => Memory
  | server _ => Server

def empty : (h : Host) → h.State
  | memory => Memory.empty
  | server _ => Table.empty

/-- Runs a task over a store that answers every call. -/
def run {α : Type} : (h : Host) → Store.Action α → World h.State → α × World h.State
  | memory, task, w => Service.runInMemory [] task w
  | server l, task, w => Server.run (l.realize task) w

/-- An operation ends in an outcome and a world. -/
def Ends {α : Type} (h : Host) (op : Store.Operation α) (w : World h.State) (o : Except Error α) (w' : World h.State) :
    Prop :=
  h.run op.run w = (o, w')

/-- What a call is answered. -/
def answer (h : Host) (c : Call) (w : World h.State) : c.Answer :=
  (h.run (call c).run w).1

variable {h : Host} {α β : Type} {w w' mid : World h.State}

@[simp]
theorem run_pure (a : α) : h.run (pure a) w = (a, w) := by
  cases h <;> rfl

@[simp]
theorem run_bind (task : Store.Action α) (rest : α → Store.Action β) :
    h.run (task >>= rest) w = h.run (rest (h.run task w).1) (h.run task w).2 := by
  cases h with
  | memory => exact Service.runInMemory_bind task rest
  | server l => simp only [run, Layout.realize_bind, Server.run_bind]

@[simp]
theorem run_tally (metric : Metric) (amount : Nat) : h.run (Task.tally metric amount) w = ((), w.note metric amount) := by
  cases h <;> rfl

theorem run_now : h.run Task.now w = (w.clock w.readings, w.tick) := by
  cases h <;> rfl

theorem run_freshId (entity : Entity) :
    h.run (Task.freshId entity) w = (w.supply w.issued.length, w.issue entity) := by
  cases h <;> rfl

namespace Ends

variable {op : Store.Operation α} {next : α → Store.Operation β} {o : Except Error α} {o' : Except Error β}

theorem unique {o₁ o₂ : Except Error α} {w₁ w₂ : World h.State} (ends : h.Ends op w o₁ w₁) (ends' : h.Ends op w o₂ w₂) :
    o₁ = o₂ ∧ w₁ = w₂ :=
  Prod.mk.inj (ends.symm.trans ends')

theorem of_isOk (op : Store.Operation α) (accepted : Except.isOk (h.run op.run w).1 = true) :
    ∃ a, h.Ends op w (.ok a) (h.run op.run w).2 := by
  cases outcome : (h.run op.run w).1 with
  | ok a => exact ⟨a, Prod.ext outcome rfl⟩
  | error e =>
    rw [outcome] at accepted
    cases accepted

theorem pure_iff {a : α} : h.Ends (pure a) w o w' ↔ o = .ok a ∧ w' = w := by
  simp only [Ends, ExceptT.run_pure, run_pure, Prod.mk.injEq, eq_comm]

theorem throw_iff {e : Error} : h.Ends (throw e : Store.Operation α) w o w' ↔ o = .error e ∧ w' = w := by
  simp only [Ends, ExceptT.run_throw, run_pure, Prod.mk.injEq, eq_comm]

theorem settled_iff {outcome : Except Error α} : h.Ends (Attempt.settled outcome) w o w' ↔ o = outcome ∧ w' = w := by
  rw [Ends, Attempt.settled, ExceptT.run_mk, run_pure, Prod.mk.injEq, eq_comm, eq_comm (a := w)]

theorem sure_iff {task : Store.Action α} :
    h.Ends (Attempt.sure task) w o w' ↔ o = .ok (h.run task w).1 ∧ w' = (h.run task w).2 := by
  have lifted : (Attempt.sure task).run = task >>= fun a => pure (.ok a) := rfl
  rw [Ends, lifted, run_bind, run_pure, Prod.mk.injEq, eq_comm, eq_comm (a := w')]

theorem bind (first : h.Ends op w (.ok a) mid) (rest : h.Ends (next a) mid o' w') : h.Ends (op >>= next) w o' w' := by
  rw [Ends, ExceptT.run_bind, run_bind, show h.run op.run w = (.ok a, mid) from first]
  exact rest

/-- Either the first part fails and with it the whole, or the rest goes on from where it ended. -/
theorem bind_iff :
    h.Ends (op >>= next) w o' w' ↔
      (∃ a mid, h.Ends op w (.ok a) mid ∧ h.Ends (next a) mid o' w') ∨
        ∃ e, h.Ends op w (.error e) w' ∧ o' = .error e := by
  constructor
  · intro ends
    rw [Ends, ExceptT.run_bind, run_bind] at ends
    cases first : h.run op.run w with
    | mk outcome mid =>
      rw [first] at ends
      cases outcome with
      | ok a => exact .inl ⟨a, mid, first, ends⟩
      | error e =>
        cases (run_pure _).symm.trans ends
        exact .inr ⟨e, first, rfl⟩
  · rintro (⟨a, mid, first, rest⟩ | ⟨e, first, rfl⟩)
    · exact first.bind rest
    · rw [Ends, ExceptT.run_bind, run_bind, show h.run op.run w = (.error e, w') from first]
      exact run_pure _

/-- A whole of two parts is accepted only if both are. -/
theorem of_ok_bind {b : β} (ends : h.Ends (op >>= next) w (.ok b) w') :
    ∃ a mid, h.Ends op w (.ok a) mid ∧ h.Ends (next a) mid (.ok b) w' := by
  rcases bind_iff.1 ends with accepted | ⟨e, _, absurd⟩
  · exact accepted
  · cases absurd

theorem sure_bind_iff {task : Store.Action α} :
    h.Ends (Attempt.sure task >>= next) w o' w' ↔ h.Ends (next (h.run task w).1) (h.run task w).2 o' w' := by
  rw [bind_iff]
  constructor
  · rintro (⟨a, mid, first, rest⟩ | ⟨e, first, _⟩)
    · obtain ⟨same, rfl⟩ := sure_iff.1 first
      cases same
      exact rest
    · cases (sure_iff.1 first).1
  · intro rest
    exact .inl ⟨_, _, sure_iff.2 ⟨rfl, rfl⟩, rest⟩

theorem now_bind_iff {next : Instant → Store.Operation β} :
    h.Ends (Attempt.now >>= next) w o' w' ↔ h.Ends (next (w.clock w.readings)) w.tick o' w' := by
  rw [Attempt.now, sure_bind_iff, run_now]

end Ends

theorem Ends.answer {c : Call} {o : c.Answer} (ends : h.Ends (call c) w o w') : h.answer c w = o :=
  congrArg Prod.fst ends

theorem ends_memory (c : Call) (w : World Memory) :
    Ends .memory (call c) w (Memory.answer c (w.clock w.readings) w.state).1
      { w with state := (Memory.answer c (w.clock w.readings) w.state).2, readings := w.readings + 1 } :=
  Service.runInMemory_call c w

theorem answer_memory (c : Call) (w : World Memory) :
    answer .memory c w = (Memory.answer c (w.clock w.readings) w.state).1 :=
  (ends_memory c w).answer

theorem ends_server {l : Layout} {c : Call} {w : World Server} {o : c.Answer} {s' : Server}
    (settles : SettlesIn w (l.operation c) o s') :
    ∃ readings, Ends (.server l) (call c) w o { w with state := s', readings := readings } := by
  obtain ⟨readings, ran⟩ := settles
  refine ⟨readings, ?_⟩
  change Server.run (l.realize (call c).run) w = _
  rw [Layout.realize_call]
  exact ran

theorem answer_server {l : Layout} {c : Call} {w : World Server} {o : c.Answer} {s' : Server}
    (settles : Settles (l.operation c) w.state o s') : answer (.server l) c w = o := by
  obtain ⟨_, ends⟩ := ends_server (settles.run w rfl)
  exact ends.answer

/-- A state that keeps what a store in memory would. -/
def Represents : (h : Host) → h.State → Memory → Prop
  | memory, m, m' => m = m'
  | server l, s, m => Redis.Represents l s m

theorem represents_empty (h : Host) : h.Represents h.empty .empty := by
  cases h with
  | memory => rfl
  | server l => exact .empty l

/-- The records of a call can be kept: in memory all of them can, on a server those whose text names them. -/
def Stores : Host → Call → Prop
  | memory, _ => True
  | server _, c => c.Storable

/-- A call is answered as in memory, and leaves what it leaves there. -/
theorem call_ends {m : Memory} {c : Call} (represents : h.Represents w.state m) (stores : h.Stores c) (fits : c.Fits m) :
    ∃ o s' readings, h.Ends (call c) w o { w with state := s', readings := readings } ∧
      h.Represents s' (Memory.answer c (w.clock w.readings) m).2 ∧
      (c.Exact m → c.Agree (Memory.answer c (w.clock w.readings) m).1 o) := by
  cases h with
  | memory =>
    obtain rfl : w.state = m := represents
    exact ⟨_, _, w.readings + 1, ends_memory c w, rfl, fun _ => .refl _⟩
  | server l =>
    obtain ⟨o, s', settles, represents', agree⟩ := Tracks.of_represents represents stores fits
    obtain ⟨readings, ends⟩ := ends_server settles
    exact ⟨o, s', readings, ends, represents', agree.2⟩

theorem Represents.called {m : Memory} {c : Call} (represents : h.Represents w.state m) (stores : h.Stores c)
    (fits : c.Fits m) :
    h.Represents (h.run (call c).run w).2.state (Memory.answer c (w.clock w.readings) m).2 := by
  obtain ⟨o, s', readings, ends, represents', _⟩ := call_ends represents stores fits
  rw [show (h.run (call c).run w).2 = { w with state := s', readings := readings } from congrArg Prod.snd ends]
  exact represents'

end Host

end CustomerSegments.Store
