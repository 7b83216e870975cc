namespace CustomerSegments

/-- A computation that makes requests of its surroundings and goes on with the answer to each. -/
inductive Program (R : Type) (A : R → Type) (α : Type) where
  | done (a : α)
  | ask (r : R) (next : A r → Program R A α)

namespace Program

variable {R : Type} {A : R → Type} {α β γ σ : Type}

/-- One program after another. -/
def bind : Program R A α → (α → Program R A β) → Program R A β
  | done a, f => f a
  | ask r next, f => ask r fun answer => (next answer).bind f

instance : Monad (Program R A) where
  pure := done
  bind := bind

/-- The program that makes one request. -/
def request (r : R) : Program R A (A r) :=
  ask r done

theorem bind_done (p : Program R A α) : p.bind done = p := by
  induction p with
  | done a => rfl
  | ask r next ih => simp [bind, ih]

theorem bind_assoc (p : Program R A α) (f : α → Program R A β) (g : β → Program R A γ) :
    (p.bind f).bind g = p.bind fun a => (f a).bind g := by
  induction p with
  | done a => rfl
  | ask r next ih => simp [bind, ih]

instance : LawfulMonad (Program R A) :=
  LawfulMonad.mk' _ bind_done (fun _ _ => rfl) bind_assoc

/-- Runs a program with a handler that answers requests from a state. -/
def run (handle : (r : R) → σ → A r × σ) : Program R A α → σ → α × σ
  | done a, s => (a, s)
  | ask r next, s => run handle (next (handle r s).1) (handle r s).2

/-- Replaces every request by a program over other requests. -/
def expand {R' : Type} {A' : R' → Type} (f : (r : R) → Program R' A' (A r)) :
    Program R A α → Program R' A' α
  | done a => done a
  | ask r next => (f r).bind fun answer => (next answer).expand f

section

variable {R' : Type} {A' : R' → Type} (f : (r : R) → Program R' A' (A r))

@[simp]
theorem expand_pure (a : α) : (pure a : Program R A α).expand f = pure a := rfl

@[simp]
theorem expand_request (r : R) : (request r).expand f = f r :=
  bind_done (f r)

@[simp]
theorem expand_bind (p : Program R A α) (q : α → Program R A β) :
    (p >>= q).expand f = p.expand f >>= fun a => (q a).expand f := by
  change (p.bind q).expand f = (p.expand f).bind fun a => (q a).expand f
  induction p with
  | done a => rfl
  | ask r next ih => simp only [bind, expand, ih, bind_assoc]

end

variable (handle : (r : R) → σ → A r × σ)

@[simp]
theorem run_pure (a : α) (s : σ) : (pure a : Program R A α).run handle s = (a, s) := rfl

@[simp]
theorem run_request (r : R) (s : σ) : (request r).run handle s = handle r s := rfl

@[simp]
theorem run_bind (p : Program R A α) (f : α → Program R A β) (s : σ) :
    (p >>= f).run handle s = (f (p.run handle s).1).run handle (p.run handle s).2 := by
  change (p.bind f).run handle s = _
  induction p generalizing s with
  | done a => rfl
  | ask r next ih => simp [bind, run, ih]

end Program

end CustomerSegments
