import CustomerSegments.Store.Memory

namespace CustomerSegments.Memory

/-- Changes the segment of an id, if it is there. -/
def revise (id : Uuid) (f : Segment → Segment) (m : Memory) : Memory :=
  match m.segments.get? id with
  | none => m
  | some s => { m with segments := m.segments.insert id (f s) }

/-- Writes a size. -/
def resize (id : Uuid) (size : Int64) (now : Instant) : Memory → Memory :=
  revise id fun s => { s with audienceSize := size, updatedAt := now }

/-- Adds to a size. -/
def bump (delta : Int64) (id : Uuid) : Memory → Memory :=
  revise id fun s => { s with audienceSize := s.audienceSize + delta }

/-- The store without a segment, which is taken from its holders at a time. -/
def dismiss (s : Segment) (id : Uuid) (now : Instant) (m : Memory) : Memory :=
  ⟨m.customers.map (Customer.strip id now), m.segments.erase id, m.names.erase s.name⟩

variable {m : Memory} {id other : Uuid} {f : Segment → Segment} {s old : Segment} {c : Customer}

theorem get?_revise :
    (m.revise id f).segments.get? other =
      (m.segments.get? other).map fun s => if id = other then f s else s := by
  unfold revise
  cases found : m.segments.get? id with
  | none =>
    by_cases same : id = other
    · subst same
      simp only [found, Option.map_none]
    · simp only [if_neg same, Option.map_id_fun', id_eq]
  | some s =>
    simp only [Table.get?_insert]
    by_cases same : id = other
    · subst same
      simp only [found, if_true, Option.map_some]
    · simp only [if_neg same, Option.map_id_fun', id_eq]

@[simp]
theorem customers_revise : (m.revise id f).customers = m.customers := by
  unfold revise
  cases m.segments.get? id <;> rfl

@[simp]
theorem names_revise : (m.revise id f).names = m.names := by
  unfold revise
  cases m.segments.get? id <;> rfl

theorem answer_setAudienceSize {size : Int64} (now : Instant) :
    answer (.setAudienceSize id size) now m =
      (match m.segments.get? id with
        | none => .error (.missing .segment id)
        | some _ => .ok (), m.resize id size now) := by
  simp only [answer, resize, revise]
  cases m.segments.get? id <;> rfl

theorem answer_incrementAudienceSize {delta : Int64} (now : Instant) :
    answer (.incrementAudienceSize id delta) now m =
      (match m.segments.get? id with
        | none => .error (.missing .segment id)
        | some s => .ok (s.audienceSize + delta), m.bump delta id) := by
  simp only [answer, bump, revise]
  cases m.segments.get? id <;> rfl

theorem answer_insertSegment_of_free (free : m.names.get? s.name = none) (now : Instant) :
    answer (.insertSegment s) now m =
      (.ok (), { m with names := m.names.insert s.name s.id, segments := m.segments.insert s.id s }) := by
  simp only [answer, insertSegment, free]
  rfl

theorem answer_insertSegment_of_taken {owner : Uuid} (taken : m.names.get? s.name = some owner) (now : Instant) :
    answer (.insertSegment s) now m = (.error (.duplicateName s.name), m) := by
  simp only [answer, insertSegment, taken]
  rfl

/-- A new name is refused exactly if it leads to another segment. -/
theorem renamed?_eq_none_iff {id : Uuid} {old new : String} {names : Table String Uuid} :
    renamed? id old new names = none ↔ old ≠ new ∧ ∃ owner, names.get? new = some owner ∧ owner ≠ id := by
  unfold renamed?
  by_cases kept : old = new
  · simp [kept]
  · cases owned : names.get? new with
    | none => simp [kept]
    | some owner => by_cases own : owner = id <;> simp [kept, own]

theorem renamed?_of_free {id : Uuid} {old new : String} {names : Table String Uuid} (differ : old ≠ new)
    (free : names.get? new = none) : renamed? id old new names = some ((names.insert new id).erase old) := by
  simp only [renamed?, if_neg differ, free]

theorem renamed?_of_own {id : Uuid} {old new : String} {names : Table String Uuid} (differ : old ≠ new)
    (own : names.get? new = some id) : renamed? id old new names = some (names.erase old) := by
  simp only [renamed?, if_neg differ, own, if_true]

theorem owner_of_renamed {id owner : Uuid} {old new : String} {names names' : Table String Uuid} (differ : old ≠ new)
    (moved : renamed? id old new names = some names') (taken : names.get? new = some owner) : owner = id :=
  Decidable.byContradiction fun other => by
    rw [renamed?_eq_none_iff.2 ⟨differ, owner, taken, other⟩] at moved
    cases moved

/-- The new name leads to the id, the old one to nobody, and every other one where it led. -/
theorem get?_renamed {id : Uuid} {old new name : String} {names names' : Table String Uuid}
    (leads : old = new → names.get? old = some id) (moved : renamed? id old new names = some names') :
    names'.get? name = if name = new then some id else if name = old then none else names.get? name := by
  by_cases kept : old = new
  · subst kept
    rw [renamed?, if_pos rfl, Option.some.injEq] at moved
    subst moved
    by_cases here : name = old
    · rw [if_pos here, here, leads rfl]
    · rw [if_neg here, if_neg here]
  · cases taken : names.get? new with
    | none =>
      rw [renamed?_of_free kept taken, Option.some.injEq] at moved
      subst moved
      rw [Table.get?_erase, Table.get?_insert]
      grind
    | some owner =>
      obtain rfl := owner_of_renamed kept moved taken
      rw [renamed?_of_own kept taken, Option.some.injEq] at moved
      subst moved
      rw [Table.get?_erase]
      grind

/-- Neither name was another's, so that the names of all others lead where they led. -/
theorem renamed_leads_iff {id other : Uuid} {old new name : String} {names names' : Table String Uuid}
    (leads : names.get? old = some id) (moved : renamed? id old new names = some names') (different : id ≠ other) :
    names'.get? name = some other ↔ names.get? name = some other := by
  have foreign : names.get? old ≠ some other := by
    rw [leads]
    exact fun same => different (Option.some.inj same)
  rw [get?_renamed (fun _ => leads) moved]
  by_cases now : name = new
  · subst now
    have unled : names.get? name ≠ some other := by
      by_cases kept : old = name
      · exact kept ▸ foreign
      · exact fun taken => different (owner_of_renamed kept moved taken).symm
    simp [different, unled]
  · by_cases was : name = old
    · simp [was, was ▸ now, foreign]
    · rw [if_neg now, if_neg was]

theorem answer_updateSegment_of_free {names : Table String Uuid}
    (live : m.segments.get? s.id = some old) (moved : renamed? s.id old.name s.name m.names = some names) (now : Instant) :
    answer (.updateSegment s) now m =
      (.ok (), { m with names := names
                        segments := m.segments.insert s.id { s with audienceSize := old.audienceSize } }) := by
  simp only [answer, updateSegment, live, moved]
  rfl

theorem answer_updateSegment_of_gone (gone : m.segments.get? s.id = none) (now : Instant) :
    answer (.updateSegment s) now m = (.error (.missing .segment s.id), m) := by
  simp only [answer, updateSegment, gone]
  rfl

theorem answer_updateSegment_of_taken (live : m.segments.get? s.id = some old)
    (moved : renamed? s.id old.name s.name m.names = none) (now : Instant) :
    answer (.updateSegment s) now m = (.error (.duplicateName s.name), m) := by
  simp only [answer, updateSegment, live, moved]
  rfl

theorem answer_deleteSegment_of_live (live : m.segments.get? id = some s) (now : Instant) :
    answer (.deleteSegment id) now m =
      (.ok (some s), { m with segments := m.segments.erase id, names := m.names.erase s.name }) := by
  simp only [answer, deleteSegment, live]

theorem answer_deleteSegment_of_gone (gone : m.segments.get? id = none) (now : Instant) :
    answer (.deleteSegment id) now m = (.ok none, m) := by
  simp only [answer, deleteSegment, gone]

theorem answer_updateCustomer_of_live {old : Customer} (live : m.customers.get? c.id = some old) (now : Instant) :
    answer (.updateCustomer c) now m = (.ok (), { m with customers := m.customers.insert c.id c }) := by
  have present : m.customers.contains c.id = true := by rw [Table.contains, live, Option.isSome_some]
  simp only [answer, present, if_true]

theorem answer_updateCustomer_of_gone (gone : m.customers.get? c.id = none) (now : Instant) :
    answer (.updateCustomer c) now m = (.error (.missing .customer c.id), m) := by
  have absent : m.customers.contains c.id = false := by rw [Table.contains, gone, Option.isSome_none]
  simp only [answer, absent, Bool.false_eq_true, if_false]

/-- What a call at a time makes of a store. One that only reads, or is refused, leaves it as it is. -/
inductive Changes (m : Memory) (now : Instant) : Store.Call → Memory → Prop
  | nothing (call : Store.Call) : Changes m now call m
  | insertCustomer (c : Customer) :
    Changes m now (.insertCustomer c) { m with customers := m.customers.insert c.id c }
  | updateCustomer {c old : Customer} (live : m.customers.get? c.id = some old) :
    Changes m now (.updateCustomer c) { m with customers := m.customers.insert c.id c }
  | deleteCustomer (id : Uuid) : Changes m now (.deleteCustomer id) { m with customers := m.customers.erase id }
  | removeSegmentFromAll (segment : Uuid) :
    Changes m now (.removeSegmentFromAll segment) { m with customers := m.customers.map (Customer.strip segment now) }
  | insertSegment {s : Segment} (free : m.names.get? s.name = none) :
    Changes m now (.insertSegment s)
      { m with names := m.names.insert s.name s.id, segments := m.segments.insert s.id s }
  | updateSegment {s old : Segment} {names : Table String Uuid} (live : m.segments.get? s.id = some old)
      (moved : renamed? s.id old.name s.name m.names = some names) :
    Changes m now (.updateSegment s)
      { m with names := names, segments := m.segments.insert s.id { s with audienceSize := old.audienceSize } }
  | deleteSegment {id : Uuid} {s : Segment} (live : m.segments.get? id = some s) :
    Changes m now (.deleteSegment id) { m with segments := m.segments.erase id, names := m.names.erase s.name }
  | setAudienceSize (id : Uuid) (size : Int64) : Changes m now (.setAudienceSize id size) (m.resize id size now)
  | incrementAudienceSize (id : Uuid) (delta : Int64) :
    Changes m now (.incrementAudienceSize id delta) (m.bump delta id)

theorem changes (call : Store.Call) (now : Instant) (m : Memory) : Changes m now call (answer call now m).2 := by
  cases call with
  | getCustomer id | listCustomers | countMatching p | getSegment id | findSegmentByName name | listSegments | ping =>
    exact .nothing _
  | insertCustomer c => exact .insertCustomer c
  | deleteCustomer id => exact .deleteCustomer id
  | removeSegmentFromAll segment => exact .removeSegmentFromAll segment
  | updateCustomer c =>
    cases live : m.customers.get? c.id with
    | none =>
      rw [answer_updateCustomer_of_gone live]
      exact .nothing _
    | some old =>
      rw [answer_updateCustomer_of_live live]
      exact .updateCustomer live
  | insertSegment s =>
    cases owner : m.names.get? s.name with
    | none =>
      rw [answer_insertSegment_of_free owner]
      exact .insertSegment owner
    | some taken =>
      rw [answer_insertSegment_of_taken owner]
      exact .nothing _
  | updateSegment s =>
    cases live : m.segments.get? s.id with
    | none =>
      rw [answer_updateSegment_of_gone live]
      exact .nothing _
    | some old =>
      cases moved : renamed? s.id old.name s.name m.names with
      | none =>
        rw [answer_updateSegment_of_taken live moved]
        exact .nothing _
      | some names =>
        rw [answer_updateSegment_of_free live moved]
        exact .updateSegment live moved
  | deleteSegment id =>
    cases live : m.segments.get? id with
    | none =>
      rw [answer_deleteSegment_of_gone live]
      exact .nothing _
    | some s =>
      rw [answer_deleteSegment_of_live live]
      exact .deleteSegment live
  | setAudienceSize id size =>
    rw [answer_setAudienceSize]
    exact .setAudienceSize id size
  | incrementAudienceSize id delta =>
    rw [answer_incrementAudienceSize]
    exact .incrementAudienceSize id delta

/-- The methods that write customers. -/
def customerWrites : List Store.Method :=
  [.insertCustomer, .updateCustomer, .deleteCustomer, .removeSegmentFromAll]

theorem customers_answer {call : Store.Call} (now : Instant) (apart : call.method ∉ customerWrites) :
    (answer call now m).2.customers = m.customers := by
  have changes := changes call now m
  generalize (answer call now m).2 = m' at changes ⊢
  cases changes with
  | insertCustomer c | updateCustomer live | deleteCustomer id | removeSegmentFromAll segment =>
    exact absurd (by simp [Store.Call.method, customerWrites]) apart
  | nothing | insertSegment free | updateSegment live moved | deleteSegment live => rfl
  | setAudienceSize id size | incrementAudienceSize id delta => exact customers_revise

/-- Only a deletion loses a segment. -/
theorem live_after {call : Store.Call} (now : Instant) (keeps : call.method ≠ .deleteSegment)
    (live : m.segments.get? id = some s) : ∃ s, (answer call now m).2.segments.get? id = some s := by
  have changes := changes call now m
  generalize (answer call now m).2 = m' at changes ⊢
  cases changes with
  | deleteSegment there => exact absurd rfl keeps
  | nothing | insertCustomer c | updateCustomer there | deleteCustomer id | removeSegmentFromAll segment =>
    exact ⟨s, live⟩
  | insertSegment free | updateSegment there moved =>
    rw [Table.get?_insert]
    split
    · exact ⟨_, rfl⟩
    · exact ⟨s, live⟩
  | setAudienceSize other size =>
    rw [resize, get?_revise, live]
    exact ⟨_, rfl⟩
  | incrementAudienceSize other delta =>
    rw [bump, get?_revise, live]
    exact ⟨_, rfl⟩

end CustomerSegments.Memory
