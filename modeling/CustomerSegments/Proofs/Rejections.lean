import CustomerSegments.Proofs.AudienceConservation

namespace CustomerSegments

/-- An error that turns a request down. The others say that a store did not do its part. -/
def Error.Rejects : Error → Prop
  | .validation _ | .duplicateName _ | .notFound _ _ => True
  | .store _ | .serialization _ | .internal _ => False

open Store Service

variable {failing : List Method} {w w' : World Memory} {id : Uuid} {e : Error}

namespace Segments

theorem get_error (live : w.state.segments.get? id ≠ none) (ends : Ends failing (get id) w (.error e) w') :
    e = .store .unavailable := by
  obtain ⟨_, ⟨same, _⟩ | ⟨_, gone⟩ | ⟨_, absent, _⟩⟩ := get_cases ends
  · exact Except.error.inj same
  · exact absurd gone live
  · cases absent

/-- A recount of a segment that is there fails only where the store does. -/
theorem recount_error {rules : List Rule} (live : w.state.segments.get? id ≠ none)
    (ends : Ends failing (recount id rules) w (.error e) w') : e = .store .unavailable := by
  unfold recount at ends
  rcases Ends.bind_iff.1 ends with ⟨size, mid, first, ends⟩ | ⟨e', first, same⟩
  · rcases Audience.recompute_cases first with ⟨_, ⟨absent, _⟩ | ⟨absent, _⟩⟩ | ⟨s, now, stored, _, _, _, _, state⟩
    · cases absent
    · cases absent
    · refine get_error ?_ ends
      rw [state, Memory.resize, Memory.get?_revise, stored]
      exact Option.some_ne_none _
  · cases same
    rcases Audience.recompute_cases first with ⟨_, ⟨same, _⟩ | ⟨_, gone⟩⟩ | ⟨_, _, _, absent, _⟩
    · exact Except.error.inj same
    · exact absurd gone live
    · cases absent

/-- Once a new segment is stored, nothing but the store can fail. -/
theorem create_rejected {request : NewSegment} {createdBy : String} (rejects : e.Rejects)
    (ends : Ends failing (create request createdBy) w (.error e) w') : w'.state = w.state := by
  rcases create_cases ends with ⟨_, same, _⟩ | ⟨_, _, s, now, mid, _, _, _, state, ends⟩
  · exact same
  · have live : mid.state.segments.get? s.id ≠ none := by
      rw [state, Table.get?_insert, if_pos rfl]
      exact Option.some_ne_none s
    rw [recount_error live ends] at rejects
    exact rejects.elim

/-- Once a segment is replaced, nothing but the store can fail. -/
theorem update_rejected {patch : SegmentPatch} (own : ∀ id s, w.state.segments.get? id = some s → s.id = id)
    (rejects : e.Rejects) (ends : Ends failing (update id patch) w (.error e) w') : w'.state = w.state := by
  rcases update_cases own ends with ⟨idle, _⟩ | ⟨s, s', now, names, mid, _, _, _, _, _, _, state, ends⟩
  · exact idle.state
  · have live : mid.state.segments.get? id ≠ none := by
      rw [state, Table.get?_insert, if_pos rfl]
      exact Option.some_ne_none s'
    have failed : e = .store .unavailable := by
      split at ends
      · exact recount_error live ends
      · exact get_error live ends
    rw [failed] at rejects
    exact rejects.elim

theorem delete_rejected (rejects : e.Rejects) (ends : Ends failing (delete id) w (.error e) w') :
    w'.state = w.state := by
  rcases delete_cases ends with ⟨idle, _⟩ | ⟨s, now, _, _, _, _, ⟨failed, _, _⟩ | ⟨absent, _⟩⟩
  · exact idle.state
  · rw [Except.error.inj failed] at rejects
    exact rejects.elim
  · cases absent

end Segments

namespace Customers

/-- A new customer is turned down for its name, or the store fails to take it. -/
theorem create_error {request : NewCustomer} (ends : Ends failing (create request) w (.error e) w') :
    e = .store .unavailable ∨ ∃ message, e = .validation message := by
  unfold create at ends
  rcases Ends.settled_bind_iff.1 ends with ⟨name, valid, ends⟩ | ⟨e', invalid, same, rfl⟩
  · have ends := Ends.freshId_bind_iff.1 (Ends.now_bind_iff.1 ends)
    rcases Ends.call_bind_iff.1 ends with ⟨_, same, _⟩ | ⟨_, ⟨_, _, ends⟩ | ⟨_, refused, _, _⟩⟩
    · exact .inl (Except.error.inj same)
    · have ends := Ends.sure_bind_iff.1 ends
      cases (Ends.pure_iff.1 ends).1
    · cases refused
  · rw [Except.error.inj same]
    exact .inr ⟨_, (validName_eq_error_iff.1 invalid).1⟩

theorem create_failed {request : NewCustomer} (ends : Ends failing (create request) w (.error e) w') :
    w'.state = w.state := by
  rcases create_cases ends with ⟨_, same, _⟩ | ⟨_, _, _, _, _, _, _, _, absent, _⟩
  · exact same
  · cases absent

/-- An import passes over the customers that are turned down, so that only the store ends it early. -/
theorem importFrom_error {requests : List NewCustomer} {index : Nat} {done : BulkImport}
    (ends : Ends failing (importFrom index done requests) w (.error e) w') : e = .store .unavailable := by
  induction requests generalizing index done w with
  | nil => cases (Ends.pure_iff.1 ends).1
  | cons request rest ih =>
    unfold importFrom at ends
    have ends := Ends.sure_bind_iff.1 ends
    split at ends
    · exact ih ends
    · exact ih ends
    · next e' invalid failed =>
      obtain ⟨same, _⟩ := Ends.throw_iff.1 ends
      rw [Except.error.inj same]
      have first : Ends failing (create request) w (.error e') (runInMemory failing (create request).run w).2 :=
        Prod.ext failed rfl
      rcases create_error first with unavailable | ⟨message, rejected⟩
      · exact unavailable
      · exact absurd rejected (invalid message)

theorem update_failed {patch : CustomerPatch} (own : ∀ id c, w.state.customers.get? id = some c → c.id = id)
    (ends : Ends failing (update id patch) w (.error e) w') : w'.state = w.state := by
  rcases update_cases own ends with ⟨idle, _⟩ | ⟨old, c, now, mid, _, _, _, _, _, _, ended⟩
  · exact idle.state
  · split at ended <;> cases ended.1

theorem delete_failed (ends : Ends failing (delete id) w (.error e) w') : w'.state = w.state := by
  rcases delete_cases ends with ⟨idle, _⟩ | ⟨_, _, _, _, _, _, absent, _⟩
  · exact idle.state
  · cases absent

end Customers

namespace Service

/-- A request to create, update or delete one customer. -/
def Request.WritesCustomer : Request → Prop
  | createCustomer _ | updateCustomer _ _ | deleteCustomer _ => True
  | _ => False

/-- A request that is turned down has not changed the store, and one that writes a single customer has
changed nothing whatever error it ends with. -/
theorem serve_failed {r : Request} (keyed : w.Keyed) (failed : (serve failing r w).1 = .error e)
    (kind : e.Rejects ∨ r.WritesCustomer) : (serve failing r w).2.state = w.state := by
  have ends : Ends failing r.operation w (.error e) (serve failing r w).2 := Prod.ext failed rfl
  have rejects (other : ¬ r.WritesCustomer) : e.Rejects := kind.resolve_right other
  cases r with
  | createSegment request createdBy => exact Segments.create_rejected (rejects id) ends
  | updateSegment target patch =>
    exact Segments.update_rejected (fun _ _ live => (keyed.segment live).1) (rejects id) ends
  | deleteSegment target => exact Segments.delete_rejected (rejects id) ends
  | createCustomer request => exact Customers.create_failed ends
  | importCustomers requests =>
    have turned := rejects id
    rw [Customers.importFrom_error ends] at turned
    exact turned.elim
  | updateCustomer target patch => exact Customers.update_failed (fun _ _ live => (keyed.customer live).1) ends
  | deleteCustomer target => exact Customers.delete_failed ends
  | previewAudience _ | listSegments | getSegment _ | summarizeSegment _ | listCustomers | getCustomer _ =>
    exact serve_reads (by simp [Request.footprint])

/-- Whatever failed in the run before and fails now: a request that is answered with a refusal has left the store
as it was, and so has one that creates, updates or deletes a customer and is answered with any error. -/
theorem rejection_changes_nothing {clock : Nat → Instant} {supply : Nat → Uuid} (steps : List Step)
    (failing : List Method) (r : Request) (e : Error) :
    let w := serveAll steps (.start .empty clock supply)
    (serve failing r w).1 = .error e → e.Rejects ∨ r.WritesCustomer → (serve failing r w).2.state = w.state :=
  fun failed kind => serve_failed (serveAll_keyed steps .empty) failed kind

/-- A segment takes a name while its size cannot be stored. The request for the same name is then turned down, and
the store is still what the first request made of it. -/
theorem rejection_changes_nothing_taken :
    let steps : List Step := [⟨[.setAudienceSize], .createSegment ⟨"VIP", none, [], true⟩ "ops"⟩]
    let w := serveAll steps (.start .empty (fun _ => .epoch) Uuid.counting)
    w.state ≠ .empty ∧ (serve [] (.createSegment ⟨" VIP ", none, [], true⟩ "ops") w).1 = .error (.duplicateName "VIP") ∧
      (serve [] (.createSegment ⟨" VIP ", none, [], true⟩ "ops") w).2.state = w.state := by
  intro steps w
  have filled : w.state ≠ .empty := by decide +kernel
  have refused : (serve [] (.createSegment ⟨" VIP ", none, [], true⟩ "ops") w).1 = .error (.duplicateName "VIP") := by
    decide +kernel
  exact ⟨filled, refused, rejection_changes_nothing steps [] _ _ refused (.inl trivial)⟩

end Service

end CustomerSegments
