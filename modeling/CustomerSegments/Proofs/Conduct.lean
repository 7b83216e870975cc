import CustomerSegments.Proofs.Calls
import CustomerSegments.Proofs.Turns

namespace CustomerSegments

/-- How one task behaves among others: what it counts on them to keep while it waits, and what it does
itself with one request. A private value goes along with the task, and only its own requests change it. -/
structure Conduct (σ ι : Type) where
  rely : σ → σ → Prop
  step : ι → σ → ι → σ → Prop
  rely_refl : ∀ s, rely s s
  rely_trans : ∀ {s s' s''}, rely s s' → rely s' s'' → rely s s''
  idle : ∀ v s, step v s v s

namespace Program

variable {R : Type} {A : R → Type} {σ ι α β : Type} {answers : (r : R) → σ → A r → σ → Prop} {c : Conduct σ ι}
  {post : α → ι → σ → Prop} {v : ι} {s : σ}

/-- Whatever the others do of what a program counts on, before each of its requests and after the last
one, its own requests are steps of its conduct and it ends as it should. -/
def Secures (answers : (r : R) → σ → A r → σ → Prop) (c : Conduct σ ι) (post : α → ι → σ → Prop) :
    Program R A α → ι → σ → Prop
  | done a, v, s => ∀ s', c.rely s s' → post a v s'
  | ask r next, v, s => ∀ s', c.rely s s' → ∀ a s'', answers r s' a s'' →
      ∃ v', c.step v s' v' s'' ∧ (next a).Secures answers c post v' s''

namespace Secures

theorem rely {p : Program R A α} {s' : σ} (secures : p.Secures answers c post v s) (others : c.rely s s') :
    p.Secures answers c post v s' := by
  cases p with
  | done a => exact fun _ more => secures _ (c.rely_trans others more)
  | ask r next => exact fun _ more => secures _ (c.rely_trans others more)

theorem ended {a : α} (secures : (done a : Program R A α).Secures answers c post v s) : post a v s :=
  secures s (c.rely_refl s)

theorem pure {a : α} (ends : ∀ s', c.rely s s' → post a v s') : (Pure.pure a : Program R A α).Secures answers c post v s :=
  ends

theorem ask {r : R} {next : A r → Program R A α}
    (asks : ∀ s', c.rely s s' → ∀ a s'', answers r s' a s'' →
      ∃ v', c.step v s' v' s'' ∧ (next a).Secures answers c post v' s'') :
    (Program.ask r next).Secures answers c post v s :=
  asks

theorem answered {r : R} {next : A r → Program R A α} {a : A r} {s' : σ}
    (secures : (Program.ask r next).Secures answers c post v s) (answer : answers r s a s') :
    ∃ v', c.step v s v' s' ∧ (next a).Secures answers c post v' s' :=
  secures s (c.rely_refl s) a s' answer

theorem bind {p : Program R A α} {f : α → Program R A β} {post : β → ι → σ → Prop}
    (first : p.Secures answers c (fun a v s => (f a).Secures answers c post v s) v s) :
    (p >>= f).Secures answers c post v s := by
  change (Program.bind p f).Secures answers c post v s
  induction p generalizing v s with
  | done a => exact first s (c.rely_refl s)
  | ask r next ih =>
    intro s' others a s'' answered
    obtain ⟨v', step, rest⟩ := first s' others a s'' answered
    exact ⟨v', step, ih a rest⟩

theorem mono {post' : α → ι → σ → Prop} {p : Program R A α} (secures : p.Secures answers c post v s)
    (weaker : ∀ a v s, post a v s → post' a v s) : p.Secures answers c post' v s := by
  induction p generalizing v s with
  | done a => exact fun s' others => weaker _ _ _ (secures s' others)
  | ask r next ih =>
    intro s' others a s'' answered
    obtain ⟨v', step, rest⟩ := secures s' others a s'' answered
    exact ⟨v', step, ih a rest⟩

/-- What holds at the end still holds after more of what the others do. -/
theorem stable {p : Program R A α} (secures : p.Secures answers c post v s) :
    p.Secures answers c (fun a v s => ∀ s', c.rely s s' → post a v s') v s := by
  induction p generalizing v s with
  | done a => exact fun s' others s'' more => secures s'' (c.rely_trans others more)
  | ask r next ih =>
    intro s' others a s'' answered
    obtain ⟨v', step, rest⟩ := secures s' others a s'' answered
    exact ⟨v', step, ih a rest⟩

end Secures

end Program

/-- What tasks get for their requests: which identifiers are handed out, and how a backend answers in a
state and changes it. -/
structure Provision (R : Type) (A : R → Type) (σ : Type) where
  minted : Uuid → Prop
  replies : (r : R) → σ → A r → σ → Prop

variable {R : Type} {A : R → Type} {σ τ ι α β : Type}

/-- How the requests of tasks can be answered. Only the backend changes the state. -/
def Provision.answers (p : Provision R A σ) : (e : Effect R) → σ → e.Answer A → σ → Prop
  | .now, s, _, s' => s' = s
  | .freshId _, s, id, s' => p.minted id ∧ s' = s
  | .tally _ _, s, _, s' => s' = s
  | .backend r, s, a, s' => p.replies r s a s'

/-- A task with its conduct, among others. -/
abbrev Task.Secures (p : Provision R A σ) (c : Conduct σ ι) (task : Task R A α) (post : α → ι → σ → Prop) (v : ι)
    (s : σ) : Prop :=
  Program.Secures p.answers c post task v s

theorem Task.secures_tally {p : Provision R A σ} {c : Conduct σ ι} {v : ι} {s : σ} {post : Unit → ι → σ → Prop}
    (metric : Metric) (amount : Nat) (ends : ∀ s', c.rely s s' → post () v s') :
    (Task.tally metric amount : Task R A Unit).Secures p c post v s := by
  rintro s' others _ s'' rfl
  exact ⟨v, c.idle v _, fun t more => ends t (c.rely_trans others more)⟩

theorem Task.secures_backend {p : Provision R A σ} {c : Conduct σ ι} {v : ι} {s : σ} {r : R}
    {post : A r → ι → σ → Prop}
    (asks : ∀ s', c.rely s s' → ∀ a s'', p.replies r s' a s'' →
      ∃ v', c.step v s' v' s'' ∧ ∀ t, c.rely s'' t → post a v' t) :
    (Task.backend r : Task R A (A r)).Secures p c post v s :=
  asks

/-- An operation with its conduct, among others. -/
abbrev Attempt.Secures (p : Provision R A σ) (c : Conduct σ ι) (op : Attempt R A α)
    (post : Except Error α → ι → σ → Prop) (v : ι) (s : σ) : Prop :=
  op.run.Secures p c post v s

namespace Attempt

variable {p : Provision R A σ} {c : Conduct σ ι} {v : ι} {s : σ} {post : Except Error α → ι → σ → Prop}

theorem secures_pure {a : α} (ends : ∀ s', c.rely s s' → post (.ok a) v s') : Secures p c (Pure.pure a) post v s :=
  ends

theorem secures_throw {e : Error} (ends : ∀ s', c.rely s s' → post (.error e) v s') :
    Secures p c (MonadExcept.throw e) post v s :=
  ends

theorem secures_settled {outcome : Except Error α} (ends : ∀ s', c.rely s s' → post outcome v s') :
    Secures p c (settled outcome) post v s :=
  ends

theorem secures_bind {op : Attempt R A α} {f : α → Attempt R A β} {post : Except Error β → ι → σ → Prop}
    (first : Secures p c op (fun o v s => match o with
      | .ok a => Secures p c (f a) post v s
      | .error e => ∀ s', c.rely s s' → post (.error e) v s') v s) :
    Secures p c (op >>= f) post v s := by
  refine Program.Secures.bind (first.mono fun o v s next => ?_)
  cases o with
  | ok a => exact next
  | error e => exact next

theorem secures_map {op : Attempt R A α} {f : α → β} {post : Except Error β → ι → σ → Prop}
    (ran : Secures p c op (fun o v s => post (o.map f) v s) v s) : Secures p c (f <$> op) post v s := by
  rw [map_eq_pure_bind]
  refine secures_bind (ran.stable.mono fun o v s ends => ?_)
  cases o with
  | ok a => exact ends
  | error e => exact ends

theorem secures_sure {task : Task R A α} (ran : task.Secures p c (fun a v s => post (.ok a) v s) v s) :
    Secures p c (sure task) post v s :=
  Program.Secures.bind ran.stable

theorem secures_now {post : Except Error Instant → ι → σ → Prop}
    (ends : ∀ now s', c.rely s s' → post (.ok now) v s') :
    Secures p c now post v s := by
  rintro s' others a s'' rfl
  exact ⟨v, c.idle v _, fun t more => ends a t (c.rely_trans others more)⟩

theorem secures_freshId {entity : Entity} {post : Except Error Uuid → ι → σ → Prop}
    (ends : ∀ id s', p.minted id → c.rely s s' → post (.ok id) v s') : Secures p c (freshId entity) post v s := by
  rintro s' others a s'' ⟨minted, rfl⟩
  exact ⟨v, c.idle v _, fun t more => ends a t minted (c.rely_trans others more)⟩

end Attempt

-- From here on the rules above are used: unfolding would run into the programs.
attribute [irreducible] Program.Secures

namespace Turns

variable {backend : (r : R) → Instant → τ → A r × τ} {p : Provision R A σ} {conduct : Nat → Conduct σ ι}
  {post : Nat → α → ι → σ → Prop} {view : World τ → σ} {on : Nat → Prop} {t : Turns R A τ α} {v : Nat → ι}

/-- Some of the tasks keep to their conducts, each with its own private value. -/
def Secured (p : Provision R A σ) (conduct : Nat → Conduct σ ι) (post : Nat → α → ι → σ → Prop)
    (view : World τ → σ) (on : Nat → Prop) (t : Turns R A τ α) (v : Nat → ι) : Prop :=
  ∀ i, on i → ∀ task, t.tasks[i]? = some task → task.Secures p (conduct i) (post i) (v i) (view t.world)

/-- The turn of one task is a step of its conduct. If the others count on no more than what such steps
keep, then all keep to their conducts. -/
theorem Secured.advance {i : Nat} (secured : t.Secured p conduct post view on v) (running : on i)
    (answered : ∀ e next, t.tasks[i]? = some (.ask e next) →
      p.answers e (view t.world) (World.answer backend e t.world).1 (view (World.answer backend e t.world).2))
    (apart : ∀ j, on j → j ≠ i → ∀ v s v' s', (conduct i).step v s v' s' → (conduct j).rely s s') :
    ∃ value, (conduct i).step (v i) (view t.world) value (view (t.advance backend i).world) ∧
      (t.advance backend i).Secured p conduct post view on (Function.update v i value) := by
  rcases advance_cases backend t i with ⟨e, next, turn⟩ | ⟨_, same⟩
  · have own := secured i running _ turn
    obtain ⟨value, step, rest⟩ := own.answered (answered e next turn)
    rw [advance_of_ask turn]
    refine ⟨value, step, fun j live task found => ?_⟩
    by_cases same : j = i
    · subst same
      have bound : j < t.tasks.length := (List.getElem?_eq_some_iff.1 turn).1
      rw [List.getElem?_set_self bound, Option.some.injEq] at found
      subst found
      rw [Function.update_self]
      exact rest
    · rw [List.getElem?_set_ne (Ne.symm same)] at found
      rw [Function.update_of_ne same]
      exact (secured j live task found).rely (apart j live same _ _ _ _ step)
  · refine ⟨v i, ?_, ?_⟩
    · rw [same]
      exact (conduct i).idle _ _
    · rw [same, Function.update_eq_self]
      exact secured

end Turns

end CustomerSegments
