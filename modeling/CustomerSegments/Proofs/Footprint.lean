import CustomerSegments.Proofs.CustomerOperations
import CustomerSegments.Proofs.SegmentOperations

namespace CustomerSegments

namespace Audience

open Store Service

variable {P : Call → Prop}

theorem noteDrops_asksOnly (dropped : List Drop) : (noteDrops dropped).AsksOnly (Effect.Within P) := by
  induction dropped with
  | nil => exact Program.asksOnly_pure _
  | cons drop rest ih => exact (CallsOnly.tally _ _).bind fun _ => ih

theorem countRules_calls (counts : ∀ p, P (.countMatching p)) (rules : List Rule) :
    CallsOnly P (countRules rules) := by
  refine CallsOnly.bind .now fun now => .bind (.sure (noteDrops_asksOnly _)) fun _ => ?_
  unfold count
  split
  · exact .pure 0
  · exact .call (counts _)

theorem recompute_calls (counts : ∀ p, P (.countMatching p)) (sizes : ∀ id size, P (.setAudienceSize id size))
    (id : Uuid) (rules : List Rule) : CallsOnly P (recompute id rules) :=
  .bind (countRules_calls counts rules) fun _ => .bind (.call (sizes _ _)) fun _ =>
    .bind (.sure (CallsOnly.tally _ _)) fun _ => .pure _

theorem preview_asksOnly (counts : ∀ p, P (.countMatching p)) (rules : List Rule) :
    (preview rules).AsksOnly (Effect.Within P) := by
  refine (countRules_calls counts rules).asks.bind fun outcome => ?_
  cases outcome with
  | ok size => exact Program.asksOnly_pure _
  | error e => exact (CallsOnly.tally _ _).bind fun _ => Program.asksOnly_pure _

theorem applyDelta_asksOnly (bumps : ∀ id delta, P (.incrementAudienceSize id delta)) (delta : Int64)
    (ids : List Uuid) : (applyDelta delta ids).AsksOnly (Effect.Within P) := by
  induction ids with
  | nil => exact Program.asksOnly_pure _
  | cons id rest ih =>
    refine (CallsOnly.call (bumps id delta)).asks.bind fun outcome => ?_
    cases outcome with
    | ok size => exact (CallsOnly.tally _ _).bind fun _ => ih.bind fun _ => Program.asksOnly_pure _
    | error e => exact (CallsOnly.tally _ _).bind fun _ => ih.bind fun _ => Program.asksOnly_pure _

end Audience

namespace Service

open Store

variable {P : Call → Prop}

/-- The methods that serving a request can call. -/
def Request.footprint : Request → List Method
  | previewAudience _ => [.countMatching]
  | listSegments => [.listSegments]
  | getSegment _ | summarizeSegment _ => [.getSegment]
  | createSegment _ _ => [.findSegmentByName, .insertSegment, .countMatching, .setAudienceSize, .getSegment]
  | updateSegment _ _ => [.getSegment, .findSegmentByName, .updateSegment, .countMatching, .setAudienceSize]
  | deleteSegment _ => [.deleteSegment, .removeSegmentFromAll]
  | listCustomers => [.listCustomers]
  | getCustomer _ => [.getCustomer]
  | createCustomer _ | importCustomers _ => [.insertCustomer, .incrementAudienceSize]
  | updateCustomer _ _ => [.getCustomer, .updateCustomer, .incrementAudienceSize]
  | deleteCustomer _ => [.deleteCustomer, .incrementAudienceSize]

theorem getSegment_calls (reads : ∀ id, P (.getSegment id)) (id : Uuid) : CallsOnly P (Segments.get id) := by
  refine .bind (.call (reads id)) fun found => ?_
  cases found with
  | none => exact .throw _
  | some s => exact .pure s

theorem getCustomer_calls (reads : ∀ id, P (.getCustomer id)) (id : Uuid) : CallsOnly P (Customers.get id) := by
  refine .bind (.call (reads id)) fun found => ?_
  cases found with
  | none => exact .throw _
  | some c => exact .pure c

theorem newName_calls (finds : ∀ name, P (.findSegmentByName name)) (id : Uuid) (s : Segment)
    (requested : Option String) : CallsOnly P (Segments.newName id s requested) := by
  cases requested with
  | none => exact .pure s.name
  | some raw =>
    refine .bind (.settled _) fun name => ?_
    by_cases kept : name = s.name
    · simp only [kept, ne_eq, not_true_eq_false, if_false]
      exact .pure _
    · simp only [kept, ne_eq, not_false_eq_true, if_true]
      refine .bind (.call (finds name)) fun found => ?_
      cases found with
      | none => exact .pure name
      | some other =>
        by_cases own : other.id = id
        · simp only [own, not_true_eq_false, if_false]
          exact .pure name
        · simp only [own, not_false_eq_true, if_true]
          exact .bind (.throw _) fun _ => .pure name

theorem recount_calls (counts : ∀ p, P (.countMatching p)) (sizes : ∀ id size, P (.setAudienceSize id size))
    (reads : ∀ id, P (.getSegment id)) (id : Uuid) (rules : List Rule) : CallsOnly P (Segments.recount id rules) :=
  .bind (Audience.recompute_calls counts sizes id rules) fun _ => getSegment_calls reads id

theorem createSegment_calls {request : NewSegment} {createdBy : String} (finds : ∀ name, P (.findSegmentByName name))
    (inserts : ∀ id name now, P (.insertSegment (request.segment id name now createdBy)))
    (counts : ∀ p, P (.countMatching p)) (sizes : ∀ id size, P (.setAudienceSize id size))
    (reads : ∀ id, P (.getSegment id)) : CallsOnly P (Segments.create request createdBy) := by
  unfold Segments.create
  refine .bind (.settled _) fun name => .bind (.call (finds name)) fun found => ?_
  have stored : CallsOnly P (do
      let now ← Attempt.now
      let id ← Attempt.freshId .segment
      Segments.store (request.segment id name now createdBy)) := by
    refine .bind .now fun now => .bind (.freshId _) fun id => ?_
    exact .bind (.call (inserts _ _ _)) fun _ => recount_calls counts sizes reads _ _
  cases found with
  | none => exact stored
  | some other => exact .bind (.throw _) fun _ => stored

theorem updateSegment_calls (reads : ∀ id, P (.getSegment id)) (finds : ∀ name, P (.findSegmentByName name))
    (counts : ∀ p, P (.countMatching p)) (sizes : ∀ id size, P (.setAudienceSize id size)) (id : Uuid)
    {patch : SegmentPatch} (updates : ∀ s name now, P (.updateSegment (Segments.revised s patch name now))) :
    CallsOnly P (Segments.update id patch) := by
  unfold Segments.update
  refine .bind (getSegment_calls reads id) fun s => .bind (newName_calls finds id s patch.name) fun name => ?_
  refine .bind .now fun now => .bind (.call (updates s name now)) fun _ => ?_
  cases patch.rules with
  | none => exact getSegment_calls reads id
  | some rules => exact recount_calls counts sizes reads id _

theorem updateCustomer_calls (reads : ∀ id, P (.getCustomer id)) (updates : ∀ c, P (.updateCustomer c))
    (bumps : ∀ id delta, P (.incrementAudienceSize id delta)) (id : Uuid) (patch : CustomerPatch) :
    CallsOnly P (Customers.update id patch) := by
  unfold Customers.update
  refine .bind (getCustomer_calls reads id) fun old => ?_
  have replaced (name : String) : CallsOnly P (Customers.replace old patch name) := by
    unfold Customers.replace
    refine .bind .now fun now => .bind (.call (updates _)) fun _ => ?_
    split
    · refine .bind (.sure ?_) fun _ => .pure _
      refine (Audience.applyDelta_asksOnly bumps _ _).bind fun _ => ?_
      exact (Audience.applyDelta_asksOnly bumps _ _).bind fun _ => Program.asksOnly_pure _
    · exact .pure _
  cases patch.name with
  | none => exact replaced old.profile.name
  | some raw => exact .bind (.settled _) replaced

theorem createCustomer_calls (inserts : ∀ c, P (.insertCustomer c))
    (bumps : ∀ id delta, P (.incrementAudienceSize id delta)) (request : NewCustomer) :
    CallsOnly P (Customers.create request) := by
  unfold Customers.create
  refine .bind (.settled _) fun name => .bind .now fun now => .bind (.freshId _) fun id => ?_
  refine .bind (.call (inserts _)) fun _ => ?_
  exact .bind (.sure (Audience.applyDelta_asksOnly bumps _ _)) fun _ => .pure _

theorem importFrom_calls (inserts : ∀ c, P (.insertCustomer c))
    (bumps : ∀ id delta, P (.incrementAudienceSize id delta)) (requests : List NewCustomer) (index : Nat)
    (done : BulkImport) : CallsOnly P (Customers.importFrom index done requests) := by
  induction requests generalizing index done with
  | nil => exact .pure done
  | cons request rest ih =>
    refine .bind (.sure (createCustomer_calls inserts bumps request).asks) fun outcome => ?_
    split
    · exact ih _ _
    · exact ih _ _
    · exact .throw _

/-- Serving a request makes no calls outside its footprint. -/
theorem operation_calls {r : Request} (allowed : ∀ c : Call, c.method ∈ r.footprint → P c) :
    CallsOnly P r.operation := by
  have permits {c : Call} (within : c.method ∈ r.footprint := by simp only [Call.method, Request.footprint, List.mem_cons, true_or, or_true]) : P c := allowed c within
  cases r with
  | previewAudience rules => exact .sure (Audience.preview_asksOnly (fun _ => permits) rules)
  | listSegments => exact .call permits
  | getSegment id => exact getSegment_calls (fun _ => permits) id
  | summarizeSegment id => exact .bind (getSegment_calls (fun _ => permits) id) fun s => .pure s.summary
  | createSegment request createdBy =>
    exact createSegment_calls (fun _ => permits) (fun _ _ _ => permits) (fun _ => permits) (fun _ _ => permits)
      fun _ => permits
  | updateSegment id patch =>
    exact updateSegment_calls (fun _ => permits) (fun _ => permits) (fun _ => permits) (fun _ _ => permits) id
      fun _ _ _ => permits
  | deleteSegment id =>
    refine .bind (.call permits) fun removed => ?_
    cases removed with
    | none => exact .throw _
    | some s => exact .call permits
  | listCustomers => exact .call permits
  | getCustomer id => exact getCustomer_calls (fun _ => permits) id
  | createCustomer request => exact createCustomer_calls (fun _ => permits) (fun _ _ => permits) request
  | importCustomers requests => exact importFrom_calls (fun _ => permits) (fun _ _ => permits) requests _ _
  | updateCustomer id patch =>
    exact updateCustomer_calls (fun _ => permits) (fun _ => permits) (fun _ _ => permits) id patch
  | deleteCustomer id =>
    refine .bind (.call permits) fun removed => ?_
    cases removed with
    | none => exact .throw _
    | some c => exact .sure (Audience.applyDelta_asksOnly (fun _ _ => permits) _ _)

end Service

end CustomerSegments
