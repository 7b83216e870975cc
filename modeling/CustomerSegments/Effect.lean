import CustomerSegments.Error
import CustomerSegments.Program
import CustomerSegments.Time.Instant

namespace CustomerSegments

/-- What is counted while requests are served. -/
inductive Metric where
  | rulesDropped
  | previewErrors
  | segmentsRecomputed
  | deltasApplied
  | deltasFailed
  | segmentsPreviewed
  | segmentsCreated
  | segmentsUpdated
  | segmentsDeleted
  | customersCreated
  | customersUpdated
  | customersDeleted
deriving DecidableEq, Repr

def Metric.name : Metric → String
  | rulesDropped => "segmentation.rules.dropped"
  | previewErrors => "segmentation.preview.errors"
  | segmentsRecomputed => "segments.recomputed"
  | deltasApplied => "membership.delta.applied"
  | deltasFailed => "membership.delta.failed"
  | segmentsPreviewed => "management.segments.previewed"
  | segmentsCreated => "management.segments.created"
  | segmentsUpdated => "management.segments.updated"
  | segmentsDeleted => "management.segments.deleted"
  | customersCreated => "management.customers.created"
  | customersUpdated => "management.customers.updated"
  | customersDeleted => "management.customers.deleted"

/-- What a task asks for: the time, an identifier never used before, a note in the counts, or
something of its backend. -/
inductive Effect (R : Type) where
  | now
  | freshId (entity : Entity)
  | tally (metric : Metric) (amount : Nat)
  | backend (r : R)

/-- The answers to a task's requests, given those of its backend. -/
def Effect.Answer {R : Type} (A : R → Type) : Effect R → Type
  | now => Instant
  | freshId _ => Uuid
  | tally _ _ => Unit
  | backend r => A r

/-- A computation over a backend. -/
abbrev Task (R : Type) (A : R → Type) := Program (Effect R) (Effect.Answer A)

/-- A computation over a backend that may fail. -/
abbrev Attempt (R : Type) (A : R → Type) := ExceptT Error (Task R A)

namespace Task

variable {R R' : Type} {A : R → Type} {A' : R' → Type} {α : Type}

def now : Task R A Instant :=
  Program.request Effect.now

def freshId (entity : Entity) : Task R A Uuid :=
  Program.request (Effect.freshId entity)

def tally (metric : Metric) (amount : Nat) : Task R A Unit :=
  Program.request (Effect.tally metric amount)

def backend (r : R) : Task R A (A r) :=
  Program.request (Effect.backend r)

/-- Replaces every request to the backend by a task over another one. -/
def onBackend (f : (r : R) → Task R' A' (A r)) : Task R A α → Task R' A' α :=
  Program.expand fun
    | .now => now
    | .freshId entity => freshId entity
    | .tally metric amount => tally metric amount
    | .backend r => f r

end Task

namespace Attempt

variable {R : Type} {A : R → Type} {α : Type}

/-- A task that cannot fail. -/
def sure (task : Task R A α) : Attempt R A α :=
  ExceptT.lift task

/-- The outcome of a computation without requests. -/
def settled (outcome : Except Error α) : Attempt R A α :=
  ExceptT.mk (pure outcome)

def now : Attempt R A Instant :=
  sure Task.now

def freshId (entity : Entity) : Attempt R A Uuid :=
  sure (Task.freshId entity)

end Attempt

/-- What surrounds a run: the state of the backend, the times and the identifiers that are handed
out one after the other, and the counts, the latest first. -/
structure World (σ : Type) where
  state : σ
  clock : Nat → Instant
  supply : Nat → Uuid
  readings : Nat
  issued : List (Entity × Uuid)
  tallies : List (Metric × Nat)

namespace World

variable {R : Type} {A : R → Type} {σ α : Type}

/-- Surroundings in which nothing has happened yet. -/
def start (state : σ) (clock : Nat → Instant) (supply : Nat → Uuid) : World σ :=
  ⟨state, clock, supply, 0, [], []⟩

/-- Answers a request, given how the backend answers at a time. -/
def answer (backend : (r : R) → Instant → σ → A r × σ) :
    (e : Effect R) → World σ → e.Answer A × World σ
  | .now, w => (w.clock w.readings, { w with readings := w.readings + 1 })
  | .freshId entity, w =>
    let id := w.supply w.issued.length
    (id, { w with issued := (entity, id) :: w.issued })
  | .tally metric amount, w => ((), { w with tallies := (metric, amount) :: w.tallies })
  | .backend r, w =>
    let (a, state) := backend r (w.clock w.readings) w.state
    (a, { w with state := state, readings := w.readings + 1 })

/-- Runs a task. -/
def run (backend : (r : R) → Instant → σ → A r × σ) (task : Task R A α) (w : World σ) :
    α × World σ :=
  Program.run (World.answer backend) task w

theorem run_bind {β : Type} (backend : (r : R) → Instant → σ → A r × σ) (task : Task R A α) (rest : α → Task R A β)
    (w : World σ) : run backend (task >>= rest) w = run backend (rest (run backend task w).1) (run backend task w).2 :=
  Program.run_bind _ task rest w

theorem run_backend (backend : (r : R) → Instant → σ → A r × σ) (r : R) (w : World σ) :
    run backend (Task.backend r) w =
      ((backend r (w.clock w.readings) w.state).1,
        { w with state := (backend r (w.clock w.readings) w.state).2, readings := w.readings + 1 }) := rfl

end World

end CustomerSegments
