import CustomerSegments.Proofs.CommandFootprint
import CustomerSegments.Proofs.FailingMethods
import CustomerSegments.Proofs.Footprint
import CustomerSegments.Proofs.ReachedStates

namespace CustomerSegments

/-- A request for a customer without a name, which is not accepted. -/
def NewCustomer.isNameless (request : NewCustomer) : Bool :=
  Text.trim request.profile.name = ""

namespace Customers

/-- What a creation says about the sizes of segments. -/
def deltas : Except Error CustomerChange → DeltaOutcome
  | .ok change => change.membership
  | .error _ => .empty

/-- The creations of customers, one after the other, whatever becomes of each. -/
def createEach (requests : List NewCustomer) : Store.Action (List (Except Error CustomerChange)) :=
  requests.mapM fun request => (create request).run

/-- A creation is refused if the customer has no name, and only then. -/
def Creates (request : NewCustomer) (outcome : Except Error CustomerChange) : Prop :=
  if request.isNameless then outcome = .error (.validation "customer name is required")
  else ∃ change, outcome = .ok change

/-- The requests of a list without a name, as they are reported, given the place of the first request. -/
def rejections (index : Nat) (requests : List NewCustomer) : List Rejection :=
  ((requests.zipIdx index).filter (·.1.isNameless)).map fun r => ⟨r.2, "customer name is required"⟩

theorem mem_rejections {requests : List NewCustomer} {r : Rejection} :
    r ∈ rejections 0 requests ↔
      r.message = "customer name is required" ∧ ∃ request, requests[r.index]? = some request ∧ request.isNameless := by
  rw [rejections, List.mem_map]
  constructor
  · rintro ⟨⟨request, index⟩, member, rfl⟩
    obtain ⟨listed, nameless⟩ := List.mem_filter.1 member
    exact ⟨rfl, request, List.mk_mem_zipIdx_iff_getElem?.1 listed, nameless⟩
  · rintro ⟨reason, request, listed, nameless⟩
    refine ⟨(request, r.index), List.mem_filter.2 ⟨List.mk_mem_zipIdx_iff_getElem?.2 listed, nameless⟩, ?_⟩
    rw [← reason]

theorem rejections_increase (index : Nat) (requests : List NewCustomer) :
    (rejections index requests).Pairwise fun r s => r.index < s.index := by
  have places : (requests.zipIdx index).Pairwise fun r s => r.2 < s.2 := by
    rw [← List.pairwise_map, List.zipIdx_map_snd]
    exact List.pairwise_lt_range'
  rw [rejections, List.pairwise_map]
  exact places.filter _

/-- What an import comes to after more requests, given what their creations came to. -/
def extended (done : BulkImport) (index : Nat) (requests : List NewCustomer)
    (outcomes : List (Except Error CustomerChange)) : BulkImport where
  imported := done.imported + requests.countP (!·.isNameless)
  rejected := done.rejected ++ rejections index requests
  membership := done.membership ++
    ⟨outcomes.flatMap fun o => (deltas o).applied, outcomes.flatMap fun o => (deltas o).failed⟩

section

variable {done : BulkImport} {index : Nat} {request : NewCustomer} {rest : List NewCustomer}
  {outcomes : List (Except Error CustomerChange)}

theorem extended_nil : extended done index [] [] = done := by
  obtain ⟨imported, rejected, applied, failed⟩ := done
  simp only [extended, rejections, List.zipIdx_nil, List.filter_nil, List.map_nil, List.append_nil, List.countP_nil,
    List.flatMap_nil, Nat.add_zero]
  exact congrArg₂ (fun a f => BulkImport.mk imported rejected ⟨a, f⟩) (List.append_nil _) (List.append_nil _)

theorem extended_nameless (nameless : request.isNameless = true) (e : Error) :
    extended done index (request :: rest) (.error e :: outcomes) =
      extended { done with rejected := done.rejected ++ [⟨index, "customer name is required"⟩] } (index + 1) rest outcomes := by
  simp only [extended, rejections, List.zipIdx_cons, List.filter_cons, nameless, if_true, List.map_cons,
    List.append_assoc, List.singleton_append, List.countP_cons, Bool.not_true, Bool.false_eq_true, if_false, Nat.add_zero]
  rfl

theorem extended_named (named : request.isNameless = false) (change : CustomerChange) :
    extended done index (request :: rest) (.ok change :: outcomes) =
      extended { done with imported := done.imported + 1, membership := done.membership ++ change.membership }
        (index + 1) rest outcomes := by
  simp only [extended, rejections, List.zipIdx_cons, List.filter_cons, named, Bool.false_eq_true, if_false,
    List.countP_cons, Bool.not_false, if_true, List.flatMap_cons, BulkImport.mk.injEq]
  refine ⟨by omega, trivial, ?_⟩
  exact congrArg₂ DeltaOutcome.mk (List.append_assoc _ _ _).symm (List.append_assoc _ _ _).symm

end

end Customers

namespace Store.Host

open Redis

variable {h : Host} {w w' : World h.State} {failing : List Method} {request : NewCustomer} {requests : List NewCustomer}

/-- New customers can be listed: in memory always, on a server if the key for their identifiers holds a set. -/
def TakesCustomers : (h : Host) → h.State → Prop
  | memory, _ => True
  | server l, s => ∃ ids, s.set? (l.key .customers) = .ok ids

theorem Reached.takesCustomers {state : h.State} (reached : h.Reached state) : h.TakesCustomers state := by
  obtain ⟨m, represents, _⟩ := reached.represents
  cases h with
  | memory => trivial
  | server l =>
    obtain ⟨ids, known, _⟩ := represents.customers.ids
    exact ⟨ids, known⟩

theorem insertCustomer_ends (c : Customer) (takes : h.TakesCustomers w.state) :
    ∃ w', h.Ends (call (.insertCustomer c)) w (.ok ()) w' ∧ h.TakesCustomers w'.state := by
  cases h with
  | memory => exact ⟨_, ends_memory (.insertCustomer c) w, trivial⟩
  | server l =>
    obtain ⟨ids, known⟩ := takes
    obtain ⟨s₁, set, _, keeps⟩ := Settles.set l (.customer c.id) w.state c.text
    rw [← keeps.set? (by simp)] at known
    obtain ⟨s₂, add, members, _⟩ := Settles.sadd l .customers known c.id.text
    obtain ⟨readings, ends⟩ := ends_server (c := .insertCustomer c) ((set.bind add).run w rfl)
    exact ⟨_, ends, _, members⟩

/-- Additions to sizes leave the list of customers. -/
theorem TakesCustomers.counted {delta : Int64} {ids : List Uuid} (takes : h.TakesCustomers w.state) :
    h.TakesCustomers (h.run (withFailing failing (Audience.applyDelta delta ids)) w).2.state := by
  cases h with
  | memory => trivial
  | server l =>
    have only := withFailing_asksOnly failing
      (Audience.applyDelta_asksOnly (P := fun c => c.method = .incrementAudienceSize) (fun _ _ => rfl) delta ids)
    have kept : (Server.run (l.realize (withFailing failing (Audience.applyDelta delta ids))) w).2.state.get?
        (l.key .customers) = w.state.get? (l.key .customers) := by
      refine Server.run_realize_keeps only ?_ w
      intro call allowed slot touches same
      rw [← Layout.key_injective same] at touches
      cases call <;> cases allowed
      cases touches
    obtain ⟨members, known⟩ := takes
    refine ⟨members, ?_⟩
    rw [Server.set?, run, kept]
    exact known

theorem create_ends_of_nameless (failing : List Method) (nameless : request.isNameless = true) :
    h.Ends (hampered failing (Customers.create request)) w (.error (.validation "customer name is required")) w := by
  have refused : validName .customer request.profile.name = .error (.validation "customer name is required") :=
    validName_eq_error_iff.2 ⟨rfl, of_decide_eq_true nameless⟩
  unfold Customers.create
  rw [hampered_bind, hampered_settled, refused]
  exact Ends.bind_iff.2 (.inr ⟨_, Ends.settled_iff.2 ⟨rfl, rfl⟩, rfl⟩)

/-- A customer with a name is stored, whatever becomes of the sizes. -/
theorem create_ends_of_named (works : Method.insertCustomer ∉ failing) (named : request.isNameless = false)
    (takes : h.TakesCustomers w.state) :
    ∃ change w', h.Ends (hampered failing (Customers.create request)) w (.ok change) w' ∧ h.TakesCustomers w'.state := by
  have accepted : validName .customer request.profile.name = .ok (Text.trim request.profile.name) :=
    validName_eq_ok_iff.2 ⟨rfl, of_decide_eq_false named⟩
  let c := request.customer (w.supply w.issued.length) (Text.trim request.profile.name) (w.clock w.readings)
  obtain ⟨mid, inserted, takes'⟩ := insertCustomer_ends (w := w.tick.issue .customer) c takes
  let counted := h.run (withFailing failing (Audience.customerCreated c)) mid
  refine ⟨⟨c, counted.1⟩, counted.2, ?_, takes'.counted⟩
  unfold Customers.create
  simp only [hampered_bind, hampered_settled, hampered_now, hampered_freshId, hampered_sure, hampered_pure]
  refine Ends.bind (Ends.settled_iff.2 ⟨accepted.symm, rfl⟩) (Ends.now_bind_iff.2 (Ends.sure_bind_iff.2 ?_))
  rw [run_freshId]
  have called : h.Ends (hampered failing (call (.insertCustomer c))) (w.tick.issue .customer) (.ok ()) mid := by
    rwa [hampered_call_of_working works]
  exact called.bind (Ends.sure_bind_iff.2 (Ends.pure_iff.2 ⟨rfl, rfl⟩))

theorem create_ends_of_failing (fails : Method.insertCustomer ∈ failing) (named : request.isNameless = false) :
    h.Ends (hampered failing (Customers.create request)) w (.error (.store .unavailable)) (w.tick.issue .customer) := by
  have accepted : validName .customer request.profile.name = .ok (Text.trim request.profile.name) :=
    validName_eq_ok_iff.2 ⟨rfl, of_decide_eq_false named⟩
  unfold Customers.create
  simp only [hampered_bind, hampered_settled, hampered_now, hampered_freshId, hampered_sure, hampered_pure]
  refine Ends.bind (Ends.settled_iff.2 ⟨accepted.symm, rfl⟩) (Ends.now_bind_iff.2 (Ends.sure_bind_iff.2 ?_))
  rw [run_freshId, hampered_call_of_failing fails]
  exact Ends.bind_iff.2 (.inr ⟨_, Ends.throw_iff.2 ⟨rfl, rfl⟩, rfl⟩)

theorem run_createEach_cons (request : NewCustomer) (rest : List NewCustomer) (w : World h.State) :
    let first := h.run (withFailing failing (Customers.create request).run) w
    let others := h.run (withFailing failing (Customers.createEach rest)) first.2
    h.run (withFailing failing (Customers.createEach (request :: rest))) w = (first.1 :: others.1, others.2) := by
  intro first others
  rw [Customers.createEach, List.mapM_cons]
  simp only [withFailing_bind, withFailing_pure, run_bind, run_pure]
  rfl

/-- An import goes on from what it has come to so far. -/
theorem importFrom_ends (requests : List NewCustomer) (works : Method.insertCustomer ∉ failing)
    (takes : h.TakesCustomers w.state) (index : Nat) (done : BulkImport) :
    let each := h.run (withFailing failing (Customers.createEach requests)) w
    h.Ends (hampered failing (Customers.importFrom index done requests)) w
        (.ok (Customers.extended done index requests each.1)) each.2 ∧
      List.Forall₂ Customers.Creates requests each.1 := by
  -- The outcome so far is an accumulator: it is the same import with less to come and more behind it.
  induction requests generalizing w index done with
  | nil =>
    have none : h.run (withFailing failing (Customers.createEach [])) w = ([], w) := run_pure []
    rw [none]
    dsimp only
    rw [Customers.extended_nil]
    exact ⟨Ends.pure_iff.2 ⟨rfl, rfl⟩, .nil⟩
  | cons request rest ih =>
    rw [run_createEach_cons]
    unfold Customers.importFrom
    rw [hampered_bind, hampered_sure]
    dsimp only
    cases nameless : request.isNameless with
    | true =>
      have first := (create_ends_of_nameless (w := w) failing nameless).run_hampered
      obtain ⟨ends, creates⟩ := ih (w := w) takes (index + 1)
        { done with rejected := done.rejected ++ [⟨index, "customer name is required"⟩] }
      rw [first, Customers.extended_nameless nameless]
      refine ⟨Ends.sure_bind_iff.2 ?_, .cons ?_ creates⟩
      · rw [first]
        exact ends
      · rw [Customers.Creates, if_pos nameless]
    | false =>
      obtain ⟨change, w₁, created, takes₁⟩ := create_ends_of_named works nameless takes
      have first := created.run_hampered
      obtain ⟨ends, creates⟩ := ih (w := w₁) takes₁ (index + 1)
        { done with imported := done.imported + 1, membership := done.membership ++ change.membership }
      rw [first, Customers.extended_named nameless]
      refine ⟨Ends.sure_bind_iff.2 ?_, .cons ?_ creates⟩
      · rw [first]
        exact ends
      · rw [Customers.Creates, nameless]
        exact ⟨change, rfl⟩

/-- The first customer with a name ends an import that cannot store it. -/
theorem importFrom_ends_of_failing (fails : Method.insertCustomer ∈ failing)
    (named : ∃ request ∈ requests, request.isNameless = false) (index : Nat) (done : BulkImport) :
    ∃ w', h.Ends (hampered failing (Customers.importFrom index done requests)) w (.error (.store .unavailable)) w' ∧
      w'.state = w.state := by
  induction requests generalizing index done with
  | nil =>
    obtain ⟨_, absent, _⟩ := named
    cases absent
  | cons request rest ih =>
    unfold Customers.importFrom
    rw [hampered_bind, hampered_sure]
    cases nameless : request.isNameless with
    | true =>
      have first := (create_ends_of_nameless (w := w) failing nameless).run_hampered
      have later : ∃ request ∈ rest, request.isNameless = false := by
        obtain ⟨other, mem, named⟩ := named
        rcases List.mem_cons.1 mem with rfl | mem
        · cases nameless.symm.trans named
        · exact ⟨other, mem, named⟩
      obtain ⟨w', ends, state⟩ := ih later (index + 1)
        { done with rejected := done.rejected ++ [⟨index, "customer name is required"⟩] }
      refine ⟨w', Ends.sure_bind_iff.2 ?_, state⟩
      rw [first]
      exact ends
    | false =>
      have first := (create_ends_of_failing (w := w) fails nameless).run_hampered
      refine ⟨w.tick.issue .customer, Ends.sure_bind_iff.2 ?_, rfl⟩
      rw [first]
      exact Ends.throw_iff.2 ⟨rfl, rfl⟩

/-- A bulk import comes to what the creations of its customers one after the other come to, in memory and on a server,
whatever methods fail apart from the storing of customers: the same world is left, every customer with a name is
counted, the others are reported by their places in increasing order, and what became of the sizes is put together in the
order of the requests. If customers cannot be stored, the first one with a name ends the import, and the store is as
it was. -/
theorem bulkImport_creates_one_by_one (h : Host) (failing : List Method) (requests : List NewCustomer)
    (w : World h.State) :
    let all := h.run (withFailing failing (Customers.bulkImport requests).run) w
    (Method.insertCustomer ∉ failing → h.TakesCustomers w.state →
      let each := h.run (withFailing failing (Customers.createEach requests)) w
      List.Forall₂ Customers.Creates requests each.1 ∧ all.2 = each.2 ∧
        ∃ done, all.1 = .ok done ∧ done.imported = requests.countP (!·.isNameless) ∧
          (done.rejected.Pairwise fun r s => r.index < s.index) ∧
          (∀ r, r ∈ done.rejected ↔ r.message = "customer name is required" ∧
            ∃ request, requests[r.index]? = some request ∧ request.isNameless) ∧
          (done.membership.applied = each.1.flatMap fun o => (Customers.deltas o).applied) ∧
          done.membership.failed = each.1.flatMap fun o => (Customers.deltas o).failed) ∧
      (Method.insertCustomer ∈ failing → (∃ request ∈ requests, request.isNameless = false) →
        all.1 = .error (.store .unavailable) ∧ all.2.state = w.state) := by
  intro all
  constructor
  · intro works takes each
    obtain ⟨ends, creates⟩ := importFrom_ends requests works takes 0 ⟨0, [], .empty⟩
    have ran : all = _ := ends.run_hampered
    refine ⟨creates, congrArg Prod.snd ran, _, congrArg Prod.fst ran, Nat.zero_add _, ?_, fun r => ?_, rfl, rfl⟩
    · exact Customers.rejections_increase 0 requests
    · exact Customers.mem_rejections
  · intro fails named
    obtain ⟨w', ends, state⟩ := importFrom_ends_of_failing (w := w) fails named 0 ⟨0, [], .empty⟩
    have ran : all = _ := ends.run_hampered
    rw [ran]
    exact ⟨rfl, state⟩

/-- Two of four customers have names. They are imported into a server that cannot move sizes, and none of them into
one that cannot store customers. -/
theorem bulkImport_creates_one_by_one_of_four :
    let h := server ⟨"audience", 1⟩
    let w := (h.run (call (.insertSegment whales)).run (.start h.empty (fun _ => .epoch) Uuid.counting)).2
    let joining (name : String) : NewCustomer := ⟨{ Profile.named name with segments := .ofList [whales.id] }, none⟩
    let requests := [joining " ", joining "Ada", joining "", joining "Grace"]
    h.Reached w.state ∧
      (∃ done, (h.run (withFailing [.incrementAudienceSize] (Customers.bulkImport requests).run) w).1 = .ok done ∧
        done.imported = 2 ∧ ⟨2, "customer name is required"⟩ ∈ done.rejected) ∧
      (h.run (withFailing [.insertCustomer] (Customers.bulkImport requests).run) w).2.state = w.state := by
  intro h w joining requests
  have reached : h.Reached w.state := .call .empty whales_storable
  obtain ⟨_, _, done, accepted, imported, _, rejected, _⟩ :=
    (bulkImport_creates_one_by_one h [.incrementAudienceSize] requests w).1 (by decide) reached.takesCustomers
  have unchanged := (bulkImport_creates_one_by_one h [.insertCustomer] requests w).2 (by decide)
    ⟨joining "Ada", by simp [requests], by decide +kernel⟩
  refine ⟨reached, ⟨done, accepted, imported.trans (by decide +kernel), (rejected _).2 ⟨rfl, joining "", rfl, ?_⟩⟩, unchanged.2⟩
  decide +kernel

end Store.Host

end CustomerSegments
