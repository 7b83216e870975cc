import CustomerSegments.Proofs.Hosts

namespace CustomerSegments

/-- The store gave no answer, or one that cannot be read. -/
def Error.isFault : Error → Bool
  | store _ | serialization _ => true
  | validation _ | duplicateName _ | notFound _ _ | internal _ => false

/-- If an outcome is an error, then a fault of the store. -/
def FaultOnly {α : Type} (o : Except Error α) : Prop :=
  ∀ e, o = .error e → e.isFault = true

namespace FaultOnly

variable {α : Type}

theorem ok (a : α) : FaultOnly (.ok a : Except Error α) := by
  intro e same
  cases same

theorem fault {e : Error} (fault : e.isFault = true) : FaultOnly (.error e : Except Error α) := by
  intro e' same
  cases same
  exact fault

end FaultOnly

/-- A store in memory refuses some calls, but it always answers. -/
theorem Memory.isFault_answer {c : Store.Call} {now : Instant} {m : Memory} {e : Error}
    (refused : (Memory.answer c now m).1 = .error e) : e.isFault = false := by
  cases c with
  | insertCustomer c | getCustomer id | deleteCustomer id | listCustomers | countMatching p
  | removeSegmentFromAll segment | getSegment id | findSegmentByName name | deleteSegment id | listSegments | ping =>
    cases refused
  | updateCustomer c =>
    simp only [answer] at refused
    split at refused
    · cases refused
    · cases refused
      rfl
  | insertSegment g =>
    simp only [answer, insertSegment] at refused
    split at refused
    · cases refused
      rfl
    · cases refused
  | updateSegment g =>
    simp only [answer, updateSegment] at refused
    split at refused
    · cases refused
      rfl
    · split at refused
      · cases refused
        rfl
      · cases refused
  | setAudienceSize id size | incrementAudienceSize id delta =>
    simp only [answer] at refused
    split at refused
    · cases refused
      rfl
    · cases refused

namespace Store

theorem Call.Agree.exists_ok {c : Call} {a : c.Result} {o : c.Answer} (agree : c.Agree (.ok a) o) :
    ∃ b, o = .ok b ∧ c.Same a b := by
  cases o with
  | ok b => exact ⟨b, rfl, agree⟩
  | error e => exact agree.elim

/-- Answers that say the same are refusals for the same reason. -/
theorem Call.Agree.eq_error {c : Call} {a o : c.Answer} {e : Error} (agree : c.Agree a o) (refused : o = .error e) :
    a = .error e := by
  subst refused
  cases a with
  | ok a => exact agree.elim
  | error e' => exact congrArg Except.error agree

namespace Host

open Redis

variable {h : Host} {α β : Type} {m : Memory} {w w' : World h.State} {post : α → World h.State → Prop}

/-- A call meets no fault of the store. It may be refused for another reason. -/
def Grants (h : Host) (w : World h.State) : Effect Call → Prop
  | .backend c => ∀ e, h.answer c w = .error e → e.isFault = false
  | .now | .freshId _ | .tally _ _ => True

/-- No call of a task meets a fault of the store. -/
def Faultless (h : Host) : Store.Action α → World h.State → Prop
  | .done _, _ => True
  | .ask e next, w =>
    h.Grants w e ∧ h.Faultless (next (h.run (Program.request e) w).1) (h.run (Program.request e) w).2

theorem faultless_bind {task : Store.Action α} {rest : α → Store.Action β} :
    h.Faultless (task >>= rest) w ↔
      h.Faultless task w ∧ h.Faultless (rest (h.run task w).1) (h.run task w).2 := by
  induction task generalizing w with
  | done a =>
    rw [show (Program.done a : Store.Action α) = pure a from rfl, run_pure, pure_bind]
    exact (and_iff_right trivial).symm
  | ask e next ih =>
    have first : h.run (.ask e next) w = h.run (next (h.run (Program.request e) w).1) (h.run (Program.request e) w).2 :=
      run_bind (Program.request e) next
    change h.Grants w e ∧ h.Faultless (next _ >>= rest) _ ↔ (h.Grants w e ∧ h.Faultless (next _) _) ∧ _
    rw [ih, first, and_assoc]

section

variable {op : Store.Operation α} {next : α → Store.Operation β}

/-- What meets no fault as a whole meets none in its first part. -/
theorem Faultless.first (faultless : h.Faultless (op >>= next).run w) : h.Faultless op.run w := by
  rw [ExceptT.run_bind, faultless_bind] at faultless
  exact faultless.1

/-- Nor does it in what comes after the first part. -/
theorem Faultless.rest {a : α} (faultless : h.Faultless (op >>= next).run w) (ends : h.Ends op w (.ok a) w') :
    h.Faultless (next a).run w' := by
  rw [ExceptT.run_bind, faultless_bind, show h.run op.run w = (.ok a, w') from ends] at faultless
  exact faultless.2

end

/-- In memory there are no faults. -/
theorem faultless_memory (task : Store.Action α) (w : World Memory) : Faultless .memory task w := by
  induction task generalizing w with
  | done a => trivial
  | ask e next ih =>
    refine ⟨?_, ih _ _⟩
    cases e with
    | now | freshId entity | tally metric amount => trivial
    | backend c =>
      intro e refused
      rw [answer_memory] at refused
      exact Memory.isFault_answer refused

/-- A call that is answered as in memory by a server that holds what is in memory: its records can be kept, and it adds
to no size. -/
structure Mirrors (h : Host) (c : Call) : Prop where
  stores : h.Stores c
  whole : c.method ≠ .incrementAudienceSize

/-- What is answered as in memory meets no fault. -/
theorem Represents.faultless {task : Store.Action α} (represents : h.Represents w.state m)
    (only : task.AsksOnly (Effect.Within h.Mirrors)) : h.Faultless task w := by
  induction task generalizing w m with
  | done a => trivial
  | ask e next ih =>
    cases e with
    | now | freshId entity | tally metric amount =>
      refine ⟨trivial, ih _ (m := m) ?_ (only.2 _)⟩
      cases h <;> exact represents
    | backend c =>
      obtain ⟨kept, whole⟩ := only.1
      have plain : c.Fits m ∧ c.Exact m := by
        cases c with
        | incrementAudienceSize id delta => exact absurd rfl whole
        | _ => exact ⟨trivial, trivial⟩
      obtain ⟨o, s', readings, ends, _, agree⟩ := call_ends represents kept plain.1
      refine ⟨fun e refused => ?_, ih _ (represents.called kept plain.1) (only.2 _)⟩
      exact Memory.isFault_answer ((agree plain.2).eq_error (ends.answer.symm.trans refused))

/-- If an operation meets no fault, it ends in a result, which has a property in the world that is left. -/
def Yields (h : Host) (op : Store.Operation α) (w : World h.State) (post : α → World h.State → Prop) : Prop :=
  h.Faultless op.run w → ∃ a w', h.Ends op w (.ok a) w' ∧ post a w'

namespace Yields

theorem of_ends {op : Store.Operation α} {a : α} (ends : h.Ends op w (.ok a) w') (reached : post a w') :
    h.Yields op w post :=
  fun _ => ⟨a, w', ends, reached⟩

theorem pure {a : α} (ends : post a w) : h.Yields (pure a) w post :=
  of_ends (Ends.pure_iff.2 ⟨rfl, rfl⟩) ends

theorem bind {op : Store.Operation α} {next : α → Store.Operation β} {Q : α → World h.State → Prop}
    {post : β → World h.State → Prop} (first : h.Yields op w Q)
    (rest : ∀ a w', Q a w' → h.Yields (next a) w' post) : h.Yields (op >>= next) w post := by
  intro faultless
  obtain ⟨a, w', ends, reached⟩ := first faultless.first
  obtain ⟨b, w'', ends', last⟩ := rest a w' reached (faultless.rest ends)
  exact ⟨b, w'', ends.bind ends', last⟩

theorem settled {outcome : Except Error α} {a : α} (same : outcome = .ok a) (ends : post a w) :
    h.Yields (Attempt.settled outcome) w post :=
  of_ends (Ends.settled_iff.2 ⟨same.symm, rfl⟩) ends

theorem sure {task : Store.Action α} (ends : post (h.run task w).1 (h.run task w).2) :
    h.Yields (Attempt.sure task) w post :=
  of_ends (Ends.sure_iff.2 ⟨rfl, rfl⟩) ends

theorem now {post : Instant → World h.State → Prop} (ends : post (w.clock w.readings) w.tick) :
    h.Yields Attempt.now w post :=
  sure (by rwa [run_now])

theorem freshId {entity : Entity} {post : Uuid → World h.State → Prop}
    (ends : post (w.supply w.issued.length) (w.issue entity)) : h.Yields (Attempt.freshId entity) w post :=
  sure (by rwa [run_freshId])

/-- A call that nothing but a fault can refuse ends with its answer. -/
theorem call {c : Call} {post : c.Result → World h.State → Prop}
    (ends : h.Ends (call c) w (h.answer c w) w') (fault : FaultOnly (h.answer c w))
    (later : ∀ a, h.answer c w = .ok a → post a w') : h.Yields (Store.call c) w post := by
  intro faultless
  cases answered : h.answer c w with
  | error e => exact absurd (fault e answered) (Bool.eq_false_iff.1 (faultless.1 e answered))
  | ok a => exact ⟨a, w', answered ▸ ends, later a answered⟩

end Yields

end Host

end Store

end CustomerSegments
