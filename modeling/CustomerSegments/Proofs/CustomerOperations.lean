import CustomerSegments.Proofs.AudienceTasks

namespace CustomerSegments

/-- The customer that a client asks for. -/
def NewCustomer.customer (request : NewCustomer) (id : Uuid) (name : String) (now : Instant) : Customer :=
  ⟨id, { request.profile with name := name }, request.createdAt.getD now, now⟩

namespace Customers

open Store Service

variable {failing : List Method} {w w' : World Memory} {id : Uuid}

theorem get_cases {o : Except Error Customer} (ends : Ends failing (get id) w o w') :
    w.Idles w' ∧
      ((o = .error (.store .unavailable) ∧ Method.getCustomer ∈ failing) ∨
        (o = .error (.missing .customer id) ∧ w.state.customers.get? id = none) ∨
          ∃ c, o = .ok c ∧ w.state.customers.get? id = some c) := by
  unfold get at ends
  rcases Ends.call_bind_iff.1 ends with ⟨fails, rfl, rfl⟩ | ⟨_, ⟨found, answered, ends⟩ | ⟨e, answered, _, _⟩⟩
  · exact ⟨.refl w', .inl ⟨rfl, fails⟩⟩
  · cases answered
    cases live : w.state.customers.get? id with
    | none =>
      simp only [live] at ends
      obtain ⟨rfl, rfl⟩ := Ends.throw_iff.1 ends
      exact ⟨w.idles_next, .inr (.inl ⟨rfl, rfl⟩)⟩
    | some c =>
      simp only [live] at ends
      obtain ⟨rfl, rfl⟩ := Ends.pure_iff.1 ends
      exact ⟨w.idles_next, .inr (.inr ⟨c, rfl, rfl⟩)⟩
  · cases answered

/-- A new customer is refused without a trace in the store, or stored and then added to the sizes of
its segments. -/
theorem create_cases {request : NewCustomer} {o : Except Error CustomerChange}
    (ends : Ends failing (create request) w o w') :
    (w.Follows w' ∧ w'.state = w.state ∧ (∃ e, o = .error e) ∧
        (failing ≠ [] ∨ Text.trim request.profile.name = "")) ∨
      Text.trim request.profile.name ≠ "" ∧
        ∃ c now mid, c = request.customer (w.supply w.issued.length) (Text.trim request.profile.name) now ∧
          w.Follows mid ∧ mid.issued = (.customer, c.id) :: w.issued ∧
          mid.state = { w.state with customers := w.state.customers.insert c.id c } ∧
          let counted := runInMemory failing (Audience.customerCreated c) mid
          o = .ok ⟨c, counted.1⟩ ∧ w' = counted.2 := by
  unfold create at ends
  rcases Ends.settled_bind_iff.1 ends with ⟨name, valid, ends⟩ | ⟨e, invalid, rfl, rfl⟩
  · obtain ⟨rfl, filled⟩ := validName_eq_ok_iff.1 valid
    generalize Text.trim request.profile.name = name at ends filled ⊢
    have ends := Ends.freshId_bind_iff.1 (Ends.now_bind_iff.1 ends)
    have follows : w.Follows (w.tick.issue .customer) := (World.idles_tick _).follows.trans (World.follows_issue _ _)
    rcases Ends.call_bind_iff.1 ends with ⟨fails, rfl, rfl⟩ | ⟨_, ⟨_, stored, ends⟩ | ⟨e, refused, _, _⟩⟩
    · exact .inl ⟨follows, rfl, ⟨_, rfl⟩, .inl (List.ne_nil_of_mem fails)⟩
    · have ends := Ends.sure_bind_iff.1 ends
      obtain ⟨rfl, rfl⟩ := Ends.pure_iff.1 ends
      exact .inr ⟨filled, _, w.clock w.readings, _, rfl, follows.trans (World.follows_next _ _), rfl, rfl, rfl, rfl⟩
    · cases refused
  · exact .inl ⟨.refl w', rfl, ⟨e, rfl⟩, .inr (validName_eq_error_iff.1 invalid).2⟩

/-- What holds over every creation of a customer, and composes, holds over an import. -/
theorem importFrom_related {R : World Memory → World Memory → Prop} (same : ∀ w, R w w)
    (composed : ∀ w mid w', R w mid → R mid w' → R w w')
    (created : ∀ request w o w', Ends failing (create request) w o w' → R w w')
    {requests : List NewCustomer} {index : Nat} {done : BulkImport} {o : Except Error BulkImport}
    (ends : Ends failing (importFrom index done requests) w o w') : R w w' := by
  induction requests generalizing index done w with
  | nil =>
    obtain ⟨_, rfl⟩ := Ends.pure_iff.1 ends
    exact same _
  | cons request rest ih =>
    unfold importFrom at ends
    have ends := Ends.sure_bind_iff.1 ends
    have first := created request w _ _ rfl
    refine composed _ _ _ first ?_
    split at ends
    · exact ih ends
    · exact ih ends
    · obtain ⟨_, rfl⟩ := Ends.throw_iff.1 ends
      exact same _

/-- The customer that a patch and a name make of a stored one. -/
def revised (old : Customer) (patch : CustomerPatch) (name : String) (now : Instant) : Customer :=
  { old with profile := { patch.apply old.profile with name := name }, updatedAt := now }

/-- Replaces a stored customer and moves the sizes of the segments gained and lost. -/
def replace (old : Customer) (patch : CustomerPatch) (name : String) : Operation CustomerChange := do
  let c := revised old patch name (← Attempt.now)
  call (.updateCustomer c)
  if old.segments ≠ c.segments then
    return ⟨c, ← Attempt.sure (Audience.customerUpdated old.segments c.segments)⟩
  else return ⟨c, .empty⟩

theorem replace_cases {old : Customer} {patch : CustomerPatch} {name : String} {o : Except Error CustomerChange}
    (live : w.state.customers.get? old.id = some old) (ends : Ends failing (replace old patch name) w o w') :
    (w.Idles w' ∧ (∃ e, o = .error e) ∧ failing ≠ []) ∨
      ∃ now mid, w.Follows mid ∧ mid.issued = w.issued ∧
        mid.state = { w.state with customers := w.state.customers.insert old.id (revised old patch name now) } ∧
        let c := revised old patch name now
        let counted := runInMemory failing (Audience.customerUpdated old.segments c.segments) mid
        if old.segments ≠ c.segments then o = .ok ⟨c, counted.1⟩ ∧ w' = counted.2
        else o = .ok ⟨c, .empty⟩ ∧ w' = mid := by
  unfold replace at ends
  have ends := Ends.now_bind_iff.1 ends
  generalize same : revised old patch name (w.clock w.readings) = c at ends
  have present : w.tick.state.customers.get? c.id = some old := by
    rw [← same]
    exact live
  have answered := Memory.answer_updateCustomer_of_live present (w.tick.clock w.tick.readings)
  rcases Ends.call_bind_iff.1 ends with ⟨fails, rfl, rfl⟩ | ⟨_, ⟨_, stored, ends⟩ | ⟨e, refused, _, _⟩⟩
  · exact .inl ⟨w.idles_tick, ⟨_, rfl⟩, List.ne_nil_of_mem fails⟩
  · rw [answered] at ends
    let mid := w.tick.next { w.state with customers := w.state.customers.insert c.id c }
    have follows : w.Follows mid := (World.idles_tick _).follows.trans (World.follows_next _ _)
    have state : mid.state =
        { w.state with customers := w.state.customers.insert old.id (revised old patch name (w.clock w.readings)) } := by
      rw [same]
      subst same
      rfl
    refine .inr ⟨w.clock w.readings, mid, follows, rfl, state, ?_⟩
    rw [same]
    by_cases kept : old.segments = c.segments
    · simp only [kept, ne_eq, not_true_eq_false, if_false] at ends ⊢
      exact Ends.pure_iff.1 ends
    · simp only [kept, ne_eq, not_false_eq_true, if_true] at ends ⊢
      have ends := Ends.sure_bind_iff.1 ends
      exact Ends.pure_iff.1 ends
  · rw [answered] at refused
    cases refused

/-- An update is refused without a trace in the store, or the customer is replaced and the difference of
its segments moves their sizes. -/
theorem update_cases {patch : CustomerPatch} {o : Except Error CustomerChange}
    (own : ∀ id c, w.state.customers.get? id = some c → c.id = id)
    (ends : Ends failing (update id patch) w o w') :
    (w.Idles w' ∧ (∃ e, o = .error e) ∧
        (failing ≠ [] ∨ w.state.customers.get? id = none ∨ ∃ raw, patch.name = some raw ∧ Text.trim raw = "")) ∨
      ∃ old c now mid, w.state.customers.get? id = some old ∧
        (∀ raw, patch.name = some raw → Text.trim raw ≠ "") ∧
        c = revised old patch ((patch.name.map Text.trim).getD old.profile.name) now ∧
        w.Follows mid ∧ mid.issued = w.issued ∧
        mid.state = { w.state with customers := w.state.customers.insert id c } ∧
        let counted := runInMemory failing (Audience.customerUpdated old.segments c.segments) mid
        if old.segments ≠ c.segments then o = .ok ⟨c, counted.1⟩ ∧ w' = counted.2
        else o = .ok ⟨c, .empty⟩ ∧ w' = mid := by
  unfold update at ends
  rcases Ends.bind_iff.1 ends with ⟨old, found, first, rest⟩ | ⟨e, first, rfl⟩
  · obtain ⟨idle, ⟨absent, _⟩ | ⟨absent, _⟩ | ⟨c, same, live⟩⟩ := get_cases first
    · cases absent
    · cases absent
    cases same
    obtain rfl := own id old live
    have live' : found.state.customers.get? old.id = some old := idle.state ▸ live
    cases requested : patch.name with
    | none =>
      simp only [requested] at rest
      have ends : Ends failing (replace old patch old.profile.name) found o w' := rest
      rcases replace_cases live' ends with ⟨after, failed, fails⟩ | ⟨now, mid, follows, issued, state, counted⟩
      · exact .inl ⟨idle.trans after, failed, .inl fails⟩
      · refine .inr ⟨old, _, now, mid, live, nofun, rfl, idle.follows.trans follows, issued.trans idle.issued, ?_, counted⟩
        rw [state, idle.state]
        rfl
    | some raw =>
      simp only [requested] at rest
      rcases Ends.settled_bind_iff.1 rest with ⟨name, valid, rest⟩ | ⟨e, invalid, rfl, rfl⟩
      · obtain ⟨rfl, filled⟩ := validName_eq_ok_iff.1 valid
        have ends : Ends failing (replace old patch (Text.trim raw)) found o w' := rest
        rcases replace_cases live' ends with ⟨after, failed, fails⟩ | ⟨now, mid, follows, issued, state, counted⟩
        · exact .inl ⟨idle.trans after, failed, .inl fails⟩
        · refine .inr ⟨old, _, now, mid, live, ?_, rfl, idle.follows.trans follows, issued.trans idle.issued, ?_, counted⟩
          · intro raw' same
            cases same
            exact filled
          · rw [state, idle.state]
            rfl
      · exact .inl ⟨idle, ⟨e, rfl⟩, .inr (.inr ⟨raw, rfl, (validName_eq_error_iff.1 invalid).2⟩)⟩
  · obtain ⟨idle, ⟨_, fails⟩ | ⟨_, gone⟩ | ⟨c, absent, _⟩⟩ := get_cases first
    · exact .inl ⟨idle, ⟨e, rfl⟩, .inl (List.ne_nil_of_mem fails)⟩
    · exact .inl ⟨idle, ⟨e, rfl⟩, .inr (.inl gone)⟩
    · cases absent

/-- A deletion changes nothing, or takes the customer away and then from the sizes of its segments. -/
theorem delete_cases {o : Except Error DeltaOutcome} (ends : Ends failing (delete id) w o w') :
    (w.Idles w' ∧ ((o = .error (.store .unavailable) ∧ Method.deleteCustomer ∈ failing) ∨
        o = .error (.missing .customer id) ∧ w.state.customers.get? id = none)) ∨
      ∃ c mid, w.state.customers.get? id = some c ∧ w.Follows mid ∧ mid.issued = w.issued ∧
        mid.state = { w.state with customers := w.state.customers.erase id } ∧
        let counted := runInMemory failing (Audience.customerDeleted c) mid
        o = .ok counted.1 ∧ w' = counted.2 := by
  unfold delete at ends
  rcases Ends.call_bind_iff.1 ends with ⟨fails, rfl, rfl⟩ | ⟨works, ⟨removed, answered, ends⟩ | ⟨e, answered, _, _⟩⟩
  · exact .inl ⟨.refl w', .inl ⟨rfl, fails⟩⟩
  · cases answered
    cases live : w.state.customers.get? id with
    | none =>
      simp only [live] at ends
      obtain ⟨rfl, rfl⟩ := Ends.throw_iff.1 ends
      refine .inl ⟨?_, .inr ⟨rfl, rfl⟩⟩
      simp only [Memory.answer, Table.erase_of_get?_eq_none live]
      exact w.idles_next
    | some c =>
      simp only [live] at ends
      obtain ⟨rfl, rfl⟩ := Ends.sure_iff.1 ends
      exact .inr ⟨c, _, rfl, w.follows_next _, rfl, rfl, rfl, rfl⟩
  · cases answered

end Customers

end CustomerSegments
