import CustomerSegments.Redis.Server
import CustomerSegments.Redis.Store

namespace CustomerSegments.Redis

variable {α β : Type}

/-- Runs a task over a server that nobody else uses. -/
def Server.run (task : Action α) (w : World Server) : α × World Server :=
  World.run (fun c _ s => s.answer c) task w

theorem Server.run_bind (task : Action α) (rest : α → Action β) (w : World Server) :
    Server.run (task >>= rest) w = Server.run (rest (Server.run task w).1) (Server.run task w).2 :=
  World.run_bind _ task rest w

theorem Server.run_backend (c : Command) (w : World Server) :
    Server.run (Task.backend c) w =
      ((w.state.answer c).1, { w with state := (w.state.answer c).2, readings := w.readings + 1 }) :=
  World.run_backend _ c w

/-- In a world, an operation comes to an outcome and leaves another server. -/
def SettlesIn (w : World Server) (op : Operation α) (o : Except Error α) (s' : Server) : Prop :=
  ∃ readings, Server.run op.run w = (o, { w with state := s', readings := readings })

/-- Started on a server, an operation comes to an outcome and leaves another server, whatever the
clock shows. -/
structure Settles (op : Operation α) (s : Server) (o : Except Error α) (s' : Server) : Prop where
  run : ∀ w : World Server, w.state = s → SettlesIn w op o s'

/-- What follows a look at the clock sees what it showed. -/
theorem SettlesIn.now_bind {w : World Server} {next : Instant → Operation α} {o : Except Error α} {s' : Server}
    (rest : Settles (next (w.clock w.readings)) w.state o s') : SettlesIn w (Attempt.now >>= next) o s' := by
  obtain ⟨later, ran⟩ := rest.run { w with readings := w.readings + 1 } rfl
  exact ⟨later, ran⟩

namespace Settles

variable {op : Operation α} {next : α → Operation β} {s s' s'' : Server}

theorem pure (a : α) : Settles (Pure.pure a) s (.ok a) s :=
  ⟨fun w same => ⟨w.readings, by subst same; rfl⟩⟩

theorem throw (e : Error) : Settles (MonadExcept.throw e : Operation α) s (.error e) s :=
  ⟨fun w same => ⟨w.readings, by subst same; rfl⟩⟩

theorem settled {outcome o : Except Error α} (same : outcome = o) : Settles (Attempt.settled outcome) s o s :=
  ⟨fun w start => ⟨w.readings, by subst start same; rfl⟩⟩

theorem bind {a : α} {o : Except Error β} (first : Settles op s (.ok a) s') (rest : Settles (next a) s' o s'') :
    Settles (op >>= next) s o s'' := by
  refine ⟨fun w same => ?_⟩
  obtain ⟨later, ran⟩ := first.run w same
  obtain ⟨last, ended⟩ := rest.run { w with state := s', readings := later } rfl
  refine ⟨last, ?_⟩
  rw [ExceptT.run_bind, Server.run_bind, ran]
  exact ended

theorem bind_error {e : Error} (first : Settles op s (.error e) s') : Settles (op >>= next) s (.error e) s' := by
  refine ⟨fun w same => ?_⟩
  obtain ⟨later, ran⟩ := first.run w same
  refine ⟨later, ?_⟩
  rw [ExceptT.run_bind, Server.run_bind, ran]
  rfl

theorem map {a : α} (f : α → β) (first : Settles op s (.ok a) s') : Settles (f <$> op) s (.ok (f a)) s' := by
  rw [map_eq_pure_bind]
  exact first.bind (pure _)

/-- A command that is not refused. -/
theorem send {c : Command} {r : c.Result} (executed : s.execute c = .ok (r, s')) :
    Settles (Redis.send c) s (.ok r) s' := by
  refine ⟨fun w same => ⟨w.readings + 1, ?_⟩⟩
  subst same
  have answered : w.state.answer c = (.ok r, s') := by
    rw [Server.answer, executed]
  rw [Redis.send, ExceptT.run_mk, Server.run_bind, Server.run_backend, answered]
  rfl

/-- A command that is refused changes nothing. -/
theorem send_refused {c : Command} {refusal : Refusal} (refused : s.execute c = .error refusal) :
    Settles (Redis.send c) s (.error (.store (.refused refusal))) s := by
  refine ⟨fun w same => ⟨w.readings + 1, ?_⟩⟩
  subst same
  have answered : w.state.answer c = (.error refusal, w.state) := by
    rw [Server.answer, refused]
  rw [Redis.send, ExceptT.run_mk, Server.run_bind, Server.run_backend, answered]
  rfl

theorem send_bind {c : Command} {r : c.Result} {next : c.Result → Operation β} {o : Except Error β}
    (executed : s.execute c = .ok (r, s')) (rest : Settles (next r) s' o s'') :
    Settles (Redis.send c >>= next) s o s'' :=
  (send executed).bind rest

end Settles

end CustomerSegments.Redis
