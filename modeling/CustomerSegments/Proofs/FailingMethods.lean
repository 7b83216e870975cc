import CustomerSegments.Proofs.Calls
import CustomerSegments.Proofs.Hosts

namespace CustomerSegments.Store

variable {failing : List Method} {α β : Type} {c : Call}

@[simp]
theorem withFailing_pure (a : α) : withFailing failing (pure a) = pure a := rfl

@[simp]
theorem withFailing_bind (task : Action α) (rest : α → Action β) :
    withFailing failing (task >>= rest) = withFailing failing task >>= fun a => withFailing failing (rest a) :=
  Program.expand_bind _ _ _

@[simp]
theorem withFailing_tally (metric : Metric) (amount : Nat) :
    withFailing failing (Task.tally metric amount) = Task.tally metric amount := rfl

theorem withFailing_call (failing : List Method) (c : Call) :
    withFailing failing (call c).run =
      if c.method ∈ failing then pure (.error (.store .unavailable)) else (call c).run :=
  Program.expand_request _ _

theorem withFailing_call_of_failing (fails : c.method ∈ failing) :
    withFailing failing (call c).run = pure (.error (.store .unavailable)) := by
  rw [withFailing_call, if_pos fails]

theorem withFailing_call_of_working (works : c.method ∉ failing) : withFailing failing (call c).run = (call c).run := by
  rw [withFailing_call, if_neg works]

/-- If no method fails, a task runs as it is. -/
theorem withFailing_nil (task : Action α) : withFailing [] task = task := by
  induction task with
  | done a => rfl
  | ask e next ih =>
    have first : withFailing [] (.ask e next) = Program.request e >>= fun a => withFailing [] (next a) := by
      cases e <;> rfl
    rw [first, funext ih]
    rfl

/-- A task in which calls fail makes no others. -/
theorem withFailing_asksOnly {P : Call → Prop} {task : Action α} (failing : List Method)
    (only : task.AsksOnly (Effect.Within P)) :
    (withFailing failing task).AsksOnly (Effect.Within P) := by
  induction task with
  | done a => trivial
  | ask e next ih =>
    refine Program.AsksOnly.bind ?_ fun a => ih a (only.2 a)
    cases e with
    | now | freshId entity | tally metric amount => exact Program.asksOnly_request trivial
    | backend c =>
      dsimp only
      split
      · exact Program.asksOnly_pure _
      · exact Program.asksOnly_request only.1

/-- An operation in which the calls of some methods fail. -/
def hampered (failing : List Method) (op : Operation α) : Operation α :=
  ExceptT.mk (withFailing failing op.run)

@[simp]
theorem hampered_pure (a : α) : hampered failing (pure a) = pure a := rfl

@[simp]
theorem hampered_settled (outcome : Except Error α) :
    hampered failing (Attempt.settled outcome) = Attempt.settled outcome := rfl

@[simp]
theorem hampered_now : hampered failing Attempt.now = Attempt.now := rfl

@[simp]
theorem hampered_freshId (entity : Entity) : hampered failing (Attempt.freshId entity) = Attempt.freshId entity := rfl

theorem hampered_call_of_failing (fails : c.method ∈ failing) :
    hampered failing (call c) = throw (.store .unavailable) :=
  withFailing_call_of_failing fails

theorem hampered_call_of_working (works : c.method ∉ failing) : hampered failing (call c) = call c :=
  withFailing_call_of_working works

@[simp]
theorem hampered_bind (op : Operation α) (next : α → Operation β) :
    hampered failing (op >>= next) = hampered failing op >>= fun a => hampered failing (next a) := by
  refine ExceptT.ext ?_
  rw [ExceptT.run_bind, hampered, ExceptT.run_mk, ExceptT.run_bind, withFailing_bind]
  refine congrArg _ (funext fun outcome => ?_)
  cases outcome <;> rfl

@[simp]
theorem hampered_sure (task : Action α) : hampered failing (Attempt.sure task) = Attempt.sure (withFailing failing task) :=
  Program.expand_bind _ _ _

theorem Host.Ends.run_hampered {h : Host} {op : Operation α} {w w' : World h.State} {o : Except Error α}
    (ends : h.Ends (hampered failing op) w o w') : h.run (withFailing failing op.run) w = (o, w') :=
  ends

end CustomerSegments.Store
