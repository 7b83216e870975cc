import CustomerSegments.Proofs.Calls
import CustomerSegments.Proofs.FaultlessRuns

namespace CustomerSegments

namespace Store.Host

open Redis

variable {h : Host} {α β : Type} {m : Memory} {w : World h.State} {id : Uuid}

/-- A document can be kept inside a record: in memory every one can, on a server those that are read back from
their text. -/
def Keeps : Host → Json → Prop
  | memory, _ => True
  | server _, j => j.Nestable

/-- A profile can be kept. -/
structure KeepsProfile (h : Host) (p : Profile) : Prop where
  spent : h.Keeps (.ofDouble p.totalSpend)
  free : h.Keeps (.object p.attributes)

/-- A rule list can be kept. -/
def KeepsRules (h : Host) (rules : List Rule) : Prop :=
  h.Keeps (.array (rules.map Rule.toJson))

theorem KeepsProfile.stores {c : Customer} (keeps : h.KeepsProfile c.profile) :
    h.Stores (.insertCustomer c) ∧ h.Stores (.updateCustomer c) := by
  cases h with
  | memory => exact ⟨trivial, trivial⟩
  | server l =>
    have storable := Customer.storable_iff.2 ⟨keeps.spent.numbers, keeps.free⟩
    exact ⟨storable, storable⟩

theorem KeepsRules.stores {g : Segment} (keeps : h.KeepsRules g.rules) :
    h.Stores (.insertSegment g) ∧ h.Stores (.updateSegment g) := by
  cases h with
  | memory => exact ⟨trivial, trivial⟩
  | server l =>
    have storable := Segment.storable_iff.2 keeps
    exact ⟨storable, storable⟩

theorem keepsProfile_of_represents {state : h.State} {c : Customer} (represents : h.Represents state m)
    (known : m.customers.get? id = some c) : h.KeepsProfile c.profile := by
  cases h with
  | memory => exact ⟨trivial, trivial⟩
  | server l =>
    obtain ⟨spent, free⟩ := Customer.storable_iff.1 (represents.customers.sound known).2
    exact ⟨Json.nestable_number spent, free⟩

theorem keepsRules_of_represents {state : h.State} {g : Segment} (represents : h.Represents state m)
    (known : m.segments.get? id = some g) : h.KeepsRules g.rules := by
  cases h with
  | memory => trivial
  | server l =>
    obtain ⟨r, _, same⟩ := represents.segments.record id
    rw [known] at same
    cases r with
    | none => exact same.elim
    | some r =>
      have rules : g.rules = r.rules := (congrArg Segment.rules same.2).trans rfl
      rw [KeepsRules, rules]
      exact Segment.storable_iff.1 same.1

/-- From a state that keeps what a store in memory would, a task without faults leads to a value and to such a state,
which have a property. -/
def Leads (h : Host) (task : Store.Action α) (m : Memory) (post : α → Memory → Prop) : Prop :=
  ∀ w, h.Represents w.state m → h.Faultless task w →
    ∃ m', h.Represents (h.run task w).2.state m' ∧ post (h.run task w).1 m'

namespace Leads

variable {task : Store.Action α} {post : α → Memory → Prop}

theorem pure {a : α} (ends : post a m) : h.Leads (pure a) m post := by
  intro w represents _
  rw [run_pure]
  exact ⟨m, represents, ends⟩

theorem bind {rest : α → Store.Action β} {Q : α → Memory → Prop} {post : β → Memory → Prop}
    (first : h.Leads task m Q) (later : ∀ a m', Q a m' → h.Leads (rest a) m' post) :
    h.Leads (task >>= rest) m post := by
  intro w represents faultless
  obtain ⟨sooner, after⟩ := faultless_bind.1 faultless
  obtain ⟨m', represents', reached⟩ := first w represents sooner
  rw [run_bind]
  exact later _ m' reached _ represents' after

theorem mono {post' : α → Memory → Prop} (leads : h.Leads task m post) (weaker : ∀ a m', post a m' → post' a m') :
    h.Leads task m post' := by
  intro w represents faultless
  obtain ⟨m', represents', reached⟩ := leads w represents faultless
  exact ⟨m', represents', weaker _ m' reached⟩

theorem tally {metric : Metric} {amount : Nat} {post : Unit → Memory → Prop} (ends : post () m) :
    h.Leads (Task.tally metric amount) m post := by
  intro w represents _
  rw [run_tally]
  exact ⟨m, represents, ends⟩

theorem now {post : Instant → Memory → Prop} (ends : ∀ t, post t m) : h.Leads Task.now m post := by
  intro w represents _
  rw [run_now]
  exact ⟨m, represents, ends _⟩

theorem freshId {entity : Entity} {post : Uuid → Memory → Prop} (ends : ∀ id, post id m) :
    h.Leads (Task.freshId entity) m post := by
  intro w represents _
  rw [run_freshId]
  exact ⟨m, represents, ends _⟩

/-- A call that is no addition is answered as in memory. -/
theorem call {c : Call} {post : c.Answer → Memory → Prop} (stores : h.Stores c)
    (whole : c.method ≠ .incrementAudienceSize)
    (ends : ∀ o now, c.Agree (Memory.answer c now m).1 o → post o (Memory.answer c now m).2) :
    h.Leads (call c).run m post := by
  intro w represents _
  have plain : c.Fits m ∧ c.Exact m := by
    cases c with
    | incrementAudienceSize id delta => exact absurd rfl whole
    | _ => exact ⟨trivial, trivial⟩
  obtain ⟨o, s', readings, ran, represents', agree⟩ := call_ends represents stores plain.1
  rw [show h.run (Store.call c).run w = _ from ran]
  exact ⟨_, represents', ends o _ (agree plain.2)⟩

/-- An addition to the size of a live segment is refused only by a server, and only with a fault. -/
theorem increment {id : Uuid} {delta : Int64} {g : Segment} {post : Except Error Int64 → Memory → Prop}
    (live : m.segments.get? id = some g) (ends : ∀ size, post (.ok size) (m.bump delta id)) :
    h.Leads (Store.call (.incrementAudienceSize id delta)).run m post := by
  intro w represents faultless
  have bumped : m.bump delta id =
      { m with segments := m.segments.insert id { g with audienceSize := g.audienceSize + delta } } := by
    simp only [Memory.bump, Memory.revise, live]
  cases h with
  | memory =>
    obtain rfl : w.state = m := represents
    have known : Memory.answer (.incrementAudienceSize id delta) (w.clock w.readings) w.state =
        (.ok (g.audienceSize + delta), w.state.bump delta id) := by
      rw [Memory.answer_incrementAudienceSize, live]
    have ran : run .memory (Store.call (.incrementAudienceSize id delta)).run w = _ :=
      ends_memory (.incrementAudienceSize id delta) w
    rw [ran, known]
    exact ⟨_, rfl, ends _⟩
  | server l =>
    by_cases fits : (Call.incrementAudienceSize id delta).Fits m
    · obtain ⟨s', settles, held, keeps⟩ :=
        represents.segments.incrementAudienceSize_of_live live (fits.toInt_add live)
      obtain ⟨readings, ran⟩ := ends_server (c := .incrementAudienceSize id delta) (settles.run w rfl)
      rw [show run (.server l) (Store.call (.incrementAudienceSize id delta)).run w = _ from ran]
      refine ⟨m.bump delta id, ?_, ends _⟩
      rw [bumped]
      exact represents.withSegments held keeps (by simp [Slot.ofCustomers])
    · obtain ⟨g', live', overflows⟩ : ∃ g, ∃ _ : m.segments.get? id = some g, _ := by
        simpa only [Call.Fits, Classical.not_forall] using fits
      have refused := represents.segments.incrementAudienceSize_of_overflow live' overflows
      exact absurd (faultless.1 _ (answer_server (c := .incrementAudienceSize id delta) refused)) (by decide)

/-- What can be known of a state because it is represented may be used. -/
theorem of_represents (leads : (∃ state, h.Represents state m) → h.Leads task m post) : h.Leads task m post :=
  fun w represents faultless => leads ⟨w.state, represents⟩ w represents faultless

/-- What every allowed call does, and what composes, a whole task does. -/
theorem related {P : Call → Prop} {R : Memory → Memory → Prop} (same : ∀ m, R m m)
    (composed : ∀ m m' m'', R m m' → R m' m'' → R m m'')
    (stores : ∀ c, P c → h.Stores c ∧ c.method ≠ .incrementAudienceSize)
    (step : ∀ c now m, P c → R m (Memory.answer c now m).2) (only : task.AsksOnly (Effect.Within P)) :
    h.Leads task m fun _ m' => R m m' := by
  induction task generalizing m with
  | done a => exact .pure (same m)
  | ask e next ih =>
    have first : h.Leads (Program.request e) m fun _ m' => R m m' := by
      cases e with
      | now => exact now fun _ => same m
      | freshId entity => exact freshId fun _ => same m
      | tally metric amount => exact tally (same m)
      | backend c => exact call (stores c only.1).1 (stores c only.1).2 fun _ _ _ => step c _ m only.1
    have later (a : _) (m' : Memory) (reached : R m m') : h.Leads (next a) m' fun _ m'' => R m m'' :=
      (ih a (only.2 a)).mono fun _ _ => composed _ _ _ reached
    exact first.bind later

section

variable {op : Store.Operation α} {next : α → Store.Operation β} {post : Except Error α → Memory → Prop}

theorem settled {outcome : Except Error α} (ends : post outcome m) : h.Leads (Attempt.settled outcome).run m post :=
  .pure ends

theorem ok {a : α} (ends : post (.ok a) m) : h.Leads (Pure.pure a : Store.Operation α).run m post :=
  .pure ends

theorem throw {e : Error} (ends : post (.error e) m) : h.Leads (MonadExcept.throw e : Store.Operation α).run m post :=
  .pure ends

theorem sure {task : Store.Action α} (leads : h.Leads task m fun a m' => post (.ok a) m') :
    h.Leads (Attempt.sure task).run m post :=
  leads.bind fun _ _ reached => .pure reached

theorem andThen {Q : Except Error α → Memory → Prop} {post : Except Error β → Memory → Prop}
    (first : h.Leads op.run m Q) (later : ∀ a m', Q (.ok a) m' → h.Leads (next a).run m' post)
    (failed : ∀ e m', Q (.error e) m' → post (.error e) m') : h.Leads (op >>= next).run m post := by
  refine first.bind fun outcome m' reached => ?_
  cases outcome with
  | ok a => exact later a m' reached
  | error e => exact .pure (failed e m' reached)

/-- What comes after a part that cannot fail. -/
theorem sureThen {task : Store.Action α} {post : Except Error β → Memory → Prop} {Q : α → Memory → Prop}
    (first : h.Leads task m Q) (later : ∀ a m', Q a m' → h.Leads (next a).run m' post) :
    h.Leads (Attempt.sure task >>= next).run m post := by
  have done : h.Leads (Attempt.sure task).run m fun o m' => ∃ a, o = .ok a ∧ Q a m' :=
    sure (first.mono fun a _ reached => ⟨a, rfl, reached⟩)
  refine done.andThen (fun a m' ⟨_, same, reached⟩ => ?_) fun e m' ⟨_, absurd, _⟩ => by cases absurd
  cases same
  exact later a m' reached

end

end Leads

end Store.Host

end CustomerSegments
