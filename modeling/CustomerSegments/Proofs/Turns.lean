import CustomerSegments.Proofs.InMemory
import Mathlib.Data.List.Induction

namespace CustomerSegments

/-- The value of a program that has come to its end. -/
def Program.result? {R : Type} {A : R → Type} {α : Type} : Program R A α → Option α
  | done a => some a
  | ask _ _ => none

/-- The state of a backend, and the requests that it has answered with their answers, the earliest
first. -/
structure Noted (R : Type) (A : R → Type) (σ : Type) where
  state : σ
  notes : List ((r : R) × A r)

/-- Tasks that take turns at one backend: each request is answered as a whole, and between two requests
of a task any number of requests of the others may be answered. -/
structure Turns (R : Type) (A : R → Type) (σ α : Type) where
  tasks : List (Task R A α)
  world : World σ

variable {R : Type} {A : R → Type} {σ α : Type}

/-- A backend that notes what it is asked. -/
def noting (backend : (r : R) → Instant → σ → A r × σ) (r : R) (now : Instant) (s : Noted R A σ) :
    A r × Noted R A σ :=
  let (a, state) := backend r now s.state
  (a, ⟨state, s.notes ++ [⟨r, a⟩]⟩)

namespace Turns

variable (backend : (r : R) → Instant → σ → A r × σ)

/-- The next request of one task is answered. A task that has come to its end makes none. -/
def advance (t : Turns R A σ α) (i : Nat) : Turns R A σ α :=
  match t.tasks[i]? with
  | some (.ask e next) =>
    let (a, world) := World.answer backend e t.world
    ⟨t.tasks.set i (next a), world⟩
  | _ => t

/-- The tasks take their turns in the order of a schedule. -/
def after (schedule : List Nat) (t : Turns R A σ α) : Turns R A σ α :=
  schedule.foldl (advance backend) t

variable {backend} {t : Turns R A σ α} {i : Nat}

theorem after_concat (schedule : List Nat) (i : Nat) (t : Turns R A σ α) :
    after backend (schedule ++ [i]) t = (after backend schedule t).advance backend i := by
  rw [after, List.foldl_append]
  rfl

theorem advance_of_ask {e : Effect R} {next : e.Answer A → Task R A α} (turn : t.tasks[i]? = some (.ask e next)) :
    t.advance backend i =
      ⟨t.tasks.set i (next (World.answer backend e t.world).1), (World.answer backend e t.world).2⟩ := by
  rw [advance, turn]

/-- A turn answers one request of a task, or there is none to answer. -/
theorem advance_cases (backend : (r : R) → Instant → σ → A r × σ) (t : Turns R A σ α) (i : Nat) :
    (∃ e next, t.tasks[i]? = some (.ask e next)) ∨
      (∀ e next, t.tasks[i]? ≠ some (.ask e next)) ∧ t.advance backend i = t := by
  cases turn : t.tasks[i]? with
  | none => exact .inr ⟨nofun, by rw [advance, turn]⟩
  | some task =>
    cases task with
    | done a => exact .inr ⟨nofun, by rw [advance, turn]⟩
    | ask e next => exact .inl ⟨e, next, rfl⟩

theorem advance_of_le (none : t.tasks.length ≤ i) : t.advance backend i = t := by
  rw [advance, List.getElem?_eq_none none]

theorem length_advance : (t.advance backend i).tasks.length = t.tasks.length := by
  rcases advance_cases backend t i with ⟨e, next, turn⟩ | ⟨_, same⟩
  · rw [advance_of_ask turn, List.length_set]
  · rw [same]

theorem length_after (schedule : List Nat) : (after backend schedule t).tasks.length = t.tasks.length := by
  induction schedule using List.reverseRecOn with
  | nil => rfl
  | append_singleton schedule i ih => rw [after_concat, length_advance, ih]

theorem advance_follows : t.world.Follows (t.advance backend i).world := by
  rcases advance_cases backend t i with ⟨e, next, turn⟩ | ⟨_, same⟩
  · rw [advance_of_ask turn]
    exact World.answer_follows backend e t.world
  · rw [same]
    exact .refl _

theorem after_follows (schedule : List Nat) : t.world.Follows (after backend schedule t).world := by
  induction schedule using List.reverseRecOn with
  | nil => exact .refl _
  | append_singleton schedule i ih =>
    rw [after_concat]
    exact ih.trans advance_follows

end Turns

end CustomerSegments
