import CustomerSegments.Proofs.AudienceBalance
import Mathlib.Algebra.Group.Int.Defs
import Mathlib.Algebra.Group.Nat.Defs
import Mathlib.Data.List.Induction

namespace CustomerSegments.Service

open Store Memory

/-- A request with an outcome counts the audience of a segment: it creates the segment, or replaces its
rules. -/
def Request.Recounts (id : Uuid) : (r : Request) → Except Error r.Result → Prop
  | createSegment _ _, .ok s => s.id = id
  | updateSegment target patch, .ok _ => target = id ∧ patch.rules.isSome
  | _, _ => False

theorem Request.not_recounts_error {r : Request} {id : Uuid} {e : Error} : ¬ r.Recounts id (.error e) := by
  cases r <;> exact not_false

variable {w w' : World Memory} {id : Uuid}

/-- With a store that answers, a recount of a live segment writes one size and reads the segment again. -/
theorem recount_written {rules : List Rule} {s : Segment} {o : Except Error Segment}
    (ends : Ends [] (Segments.recount id rules) w o w') (live : w.state.segments.get? id = some s) :
    w'.state.customers = w.state.customers ∧ w.readings < w'.readings ∧
      (∀ other, id ≠ other → w'.state.segments.get? other = w.state.segments.get? other) ∧
      ∃ s', o = .ok s' ∧ w'.state.segments.get? id = some s' ∧ s'.id = s.id ∧ s'.rules = s.rules ∧
        s'.audienceSize = Audience.storedSize (w.state.audience rules (w.clock w.readings)) := by
  rcases Segments.recount_cases ends with ⟨_, failed | gone, _⟩ | ⟨now, _, _, passed, state, failed | ⟨s', same, live'⟩⟩
  · exact absurd rfl failed
  · rw [live] at gone
    cases gone
  · exact absurd rfl failed
  · have written := live'
    rw [state, resize, get?_revise, live, Option.map_some, if_pos rfl] at written
    cases written
    refine ⟨by rw [state, resize, customers_revise], passed, fun other different => ?_, _, same, live', rfl, rfl, rfl⟩
    rw [state, resize, get?_revise]
    simp only [if_neg different, Option.map_id_fun', id_eq]

/-- What became of a live segment: its audience was counted, or its size moved with the number of its
holders. -/
def Settled (recounts : Prop) (w w' : World Memory) (id : Uuid) (s' : Segment) : Prop :=
  (recounts ∧ w'.state.customers = w.state.customers ∧ ∃ k, w.readings ≤ k ∧ k < w'.readings ∧
      s'.audienceSize = Audience.storedSize (w.state.audience s'.rules (w.clock k))) ∨
    ¬ recounts ∧ ∃ s, w.state.segments.get? id = some s ∧ s'.rules = s.rules ∧
      s'.audienceSize - Int64.ofNat (w'.state.holders id) = s.audienceSize - Int64.ofNat (w.state.holders id)

theorem createSegment_settled {request : NewSegment} {createdBy : String} {o : Except Error Segment} {s' : Segment}
    (ends : Ends [] (Segments.create request createdBy) w o w') (live : w'.state.segments.get? id = some s') :
    Settled (Request.Recounts id (.createSegment request createdBy) o) w w' id s' := by
  rcases Segments.create_cases ends with ⟨_, state, ⟨e, rfl⟩, _⟩ |
    ⟨_, _, s, now, mid, _, follows, issued, state, ends⟩
  · rw [state] at live
    exact .inr ⟨Request.not_recounts_error, s', live, rfl, by rw [state]⟩
  · have stored : mid.state.segments.get? s.id = some s := by rw [state, Table.get?_insert, if_pos rfl]
    obtain ⟨customers, passed, others, t, rfl, written, ownId, rules, size⟩ := recount_written ends stored
    have customers : w'.state.customers = w.state.customers := by rw [customers, state]
    by_cases own : s.id = id
    · subst own
      rw [written] at live
      cases live
      refine .inl ⟨ownId, customers, mid.readings, follows.readings, passed, ?_⟩
      rw [size, rules, follows.clock]
      rw [Memory.audience, Memory.audience, state]
    · rw [others id own, state, Table.get?_insert, if_neg own] at live
      refine .inr ⟨fun same => own (ownId.symm.trans same), s', live, rfl, ?_⟩
      rw [holders, holders, customers]

theorem updateSegment_settled {target : Uuid} {patch : SegmentPatch} {o : Except Error Segment} {s' : Segment}
    (ends : Ends [] (Segments.update target patch) w o w') (keyed : w.Keyed)
    (live : w'.state.segments.get? id = some s') :
    Settled (Request.Recounts id (.updateSegment target patch) o) w w' id s' := by
  rcases Segments.update_cases (fun _ _ live => (keyed.segment live).1) ends with ⟨idle, ⟨e, rfl⟩, _⟩ |
    ⟨s, t, now, names, mid, known, replaced, _, _, follows, issued, state, ends⟩
  · rw [idle.state] at live
    exact .inr ⟨Request.not_recounts_error, s', live, rfl, by rw [idle.state]⟩
  · have stored : mid.state.segments.get? target = some t := by rw [state, Table.get?_insert, if_pos rfl]
    by_cases counts : patch.rules.isSome
    · rw [if_pos counts] at ends
      obtain ⟨customers, passed, others, t', rfl, written, _, rules, size⟩ := recount_written ends stored
      have customers : w'.state.customers = w.state.customers := by rw [customers, state]
      by_cases own : target = id
      · subst own
        rw [written] at live
        cases live
        refine .inl ⟨⟨rfl, counts⟩, customers, mid.readings, follows.readings, passed, ?_⟩
        rw [size, rules, follows.clock]
        rw [Memory.audience, Memory.audience, state]
      · rw [others id own, state, Table.get?_insert, if_neg own] at live
        refine .inr ⟨fun same => own same.1, s', live, rfl, ?_⟩
        rw [holders, holders, customers]
    · rw [if_neg counts] at ends
      have idle := (Segments.get_cases ends).1
      have steady : ∃ s, w.state.segments.get? id = some s ∧ s'.rules = s.rules ∧ s'.audienceSize = s.audienceSize := by
        rw [idle.state, state, Table.get?_insert] at live
        split at live
        · next own =>
          subst own
          cases live
          refine ⟨s, known, ?_, by rw [replaced]; rfl⟩
          have kept : patch.rules = none := Option.not_isSome_iff_eq_none.1 counts
          simp only [replaced, SegmentPatch.apply, kept, Option.getD_none]
        · exact ⟨s', live, rfl, rfl⟩
      obtain ⟨s₀, before, rules, size⟩ := steady
      refine .inr ⟨?_, s₀, before, rules, ?_⟩
      · cases o with
        | ok t' => exact fun same => counts same.2
        | error e => exact Request.not_recounts_error
      · rw [size, idle.state, state]
        rfl

theorem importCustomers_steady {requests : List NewCustomer} {index : Nat} {done : BulkImport}
    {o : Except Error BulkImport} (ends : Ends [] (Customers.importFrom index done requests) w o w')
    (fresh : w'.issuedIds.Nodup) (keyed : w.Keyed) : w.state.Steady w'.state := by
  let R (w w' : World Memory) : Prop :=
    w.Follows w' ∧ (w'.issuedIds.Nodup → w.Keyed → w'.Keyed ∧ w.state.Steady w'.state)
  have related : R w w' := by
    refine Customers.importFrom_related (R := R) ?_ ?_ ?_ ends
    · exact fun w => ⟨.refl w, fun _ keyed => ⟨keyed, .refl _⟩⟩
    · rintro w mid w' ⟨follows, first⟩ ⟨follows', rest⟩
      refine ⟨follows.trans follows', fun fresh keyed => ?_⟩
      obtain ⟨keyed, steady⟩ := first (follows'.issuedIds.sublist.nodup fresh) keyed
      obtain ⟨keyed', steady'⟩ := rest fresh keyed
      exact ⟨keyed', steady.trans steady'⟩
    · intro request w o w' created
      exact ⟨created.follows, fun fresh keyed =>
        ⟨createCustomer_keyed created keyed, createCustomer_steady created fresh keyed⟩⟩
  exact (related.2 fresh keyed).2

/-- A request that calls no writing method leaves the store as it is. -/
theorem serve_reads {failing : List Method} {r : Request}
    (reads : ∀ method ∈ r.footprint, method ∈ [.getCustomer, .listCustomers, .countMatching, .getSegment,
      .findSegmentByName, .listSegments, .ping]) : (serve failing r w).2.state = w.state := by
  refine Ends.related (P := fun c => c.method ∈ [.getCustomer, .listCustomers, .countMatching, .getSegment,
    .findSegmentByName, .listSegments, .ping]) (R := fun m m' => m' = m) (fun _ => rfl)
    (fun _ _ _ first rest => rest.trans first) (fun c now m allowed => ?_)
    (operation_calls fun c member => reads c.method member) (Ends.serve failing r w)
  cases c <;> first | rfl | simp [Call.method] at allowed

/-- Serving a request either counts the audience of a live segment or moves its size with the number of its
holders. -/
theorem serve_settled (r : Request) (fresh : (serve [] r w).2.issuedIds.Nodup) (keyed : w.Keyed) {s' : Segment}
    (live : (serve [] r w).2.state.segments.get? id = some s') :
    Settled (r.Recounts id (serve [] r w).1) w (serve [] r w).2 id s' := by
  cases r with
  | createSegment request createdBy => exact createSegment_settled (Ends.serve [] (.createSegment request createdBy) w) live
  | updateSegment target patch => exact updateSegment_settled (Ends.serve [] (.updateSegment target patch) w) keyed live
  | deleteSegment target => exact .inr ⟨not_false, (deleteSegment_steady (Ends.serve [] (.deleteSegment target) w)).before live⟩
  | createCustomer request =>
    exact .inr ⟨not_false, (createCustomer_steady (Ends.serve [] (.createCustomer request) w) fresh keyed).before live⟩
  | importCustomers requests =>
    exact .inr ⟨not_false, (importCustomers_steady (Ends.serve [] (.importCustomers requests) w) fresh keyed).before live⟩
  | updateCustomer target patch =>
    exact .inr ⟨not_false, (updateCustomer_steady (Ends.serve [] (.updateCustomer target patch) w) keyed).before live⟩
  | deleteCustomer target =>
    exact .inr ⟨not_false, (deleteCustomer_steady (Ends.serve [] (.deleteCustomer target) w)).before live⟩
  | previewAudience rules | listSegments | getSegment target | summarizeSegment target | listCustomers
  | getCustomer target =>
    exact .inr ⟨not_false, (Steady.of_eq (serve_reads (by simp [Request.footprint]))).before live⟩

/-- The world after requests are served one after the other by a store that answers. -/
@[irreducible]
def served (requests : List Request) (w : World Memory) : World Memory :=
  serveAll (requests.map (Step.mk [])) w

theorem served_concat (requests : List Request) (r : Request) (w : World Memory) :
    served (requests ++ [r]) w = (serve [] r (served requests w)).2 := by
  rw [served, served, List.map_append]
  exact serveAll_concat _ _ _

theorem served_follows (requests : List Request) (w : World Memory) : w.Follows (served requests w) := by
  rw [served]
  exact serveAll_follows _ _

theorem served_keyed (requests : List Request) (keyed : w.Keyed) : (served requests w).Keyed := by
  rw [served]
  exact serveAll_keyed _ keyed

/-- The last recount of a live segment is the one whose number its size still carries; since then the size
moved with the number of its holders. -/
theorem served_size {requests : List Request} {s : Segment} (new : ∀ id, w.state.segments.get? id = none)
    (keyed : w.Keyed) (fresh : (served requests w).issuedIds.Nodup)
    (live : (served requests w).state.segments.get? id = some s) :
    ∃ before r after k, requests = before ++ r :: after ∧
      r.Recounts id (serve [] r (served before w)).1 ∧
      (∀ early r' late, after = early ++ r' :: late →
        ¬ r'.Recounts id (serve [] r' (served (before ++ r :: early) w)).1) ∧
      (served before w).readings ≤ k ∧ k < (served (before ++ [r]) w).readings ∧
      (served (before ++ [r]) w).state.customers = (served before w).state.customers ∧
      s.audienceSize = Audience.storedSize ((served before w).state.audience s.rules (w.clock k)) +
        Int64.ofNat ((served requests w).state.holders id) - Int64.ofNat ((served before w).state.holders id) := by
  induction requests using List.reverseRecOn generalizing s with
  | nil =>
    rw [served, List.map_nil, serveAll, List.foldl_nil, new] at live
    cases live
  | append_singleton requests r ih =>
    have follows : w.Follows (served requests w) := served_follows _ _
    have keyed' : (served requests w).Keyed := served_keyed _ keyed
    have later := served_concat requests r w
    rw [later] at fresh live ⊢
    have sooner := (runInMemory_follows [] r.operation.run _).issuedIds.sublist.nodup fresh
    rcases serve_settled r fresh keyed' live with ⟨recounts, customers, k, lower, upper, size⟩ |
      ⟨other, s₀, live₀, rules, balance⟩
    · refine ⟨requests, r, [], k, rfl, recounts, ?_, lower, later ▸ upper, later ▸ customers, ?_⟩
      · intro early r' late absurd
        cases early <;> cases absurd
      · have held : (serve [] r (served requests w)).2.state.holders id = (served requests w).state.holders id := by
          rw [holders, holders, customers]
        rw [size, held, follows.clock]
        grind
    · obtain ⟨before, r₀, after, k, rfl, recounts, last, lower, upper, customers, size⟩ := ih sooner live₀
      refine ⟨before, r₀, after ++ [r], k, by simp, recounts, ?_, lower, upper, customers, ?_⟩
      · intro early r' late split
        rcases List.eq_nil_or_concat late with rfl | ⟨late, r'', rfl⟩
        · obtain ⟨rfl, same⟩ := List.append_inj' split rfl
          cases same
          exact other
        · rw [List.concat_eq_append, ← List.cons_append, ← List.append_assoc] at split
          exact last early r' late (List.append_inj' split rfl).1
      · rw [rules]
        grind

theorem storedSize_eq_ofInt {n : Nat} (small : n < 2 ^ 63) : Audience.storedSize n = Int64.ofInt n := by
  rw [Audience.storedSize, if_pos (by omega), Int64.ofInt_eq_ofNat]

/-- The audience size of a segment that lives after a run over a store that was empty at first and answers
every call: the customers that its rules meant when it was last counted, and the holders it has now less
those that it had then. Between two counts only the holders move it. -/
theorem audience_size_conserved {clock : Nat → Instant} {supply : Nat → Uuid} (requests : List Request)
    (fresh : (served requests (.start .empty clock supply)).issuedIds.Nodup) :
    let world (run : List Request) := served run (.start .empty clock supply)
    (∀ id s, (world requests).state.segments.get? id = some s →
      ∃ before r after k, requests = before ++ r :: after ∧
        r.Recounts id (serve [] r (world before)).1 ∧
        (∀ early r' late, after = early ++ r' :: late →
          ¬ r'.Recounts id (serve [] r' (world (before ++ r :: early))).1) ∧
        (world before).readings ≤ k ∧ k < (world (before ++ [r])).readings ∧
        (world (before ++ [r])).state.customers = (world before).state.customers ∧
        let counted := (world before).state.audience s.rules (clock k)
        let size : Int := counted + (world requests).state.holders id - (world before).state.holders id
        (counted < 2 ^ 63 → -2 ^ 63 ≤ size → size < 2 ^ 63 → s.audienceSize.toInt = size)) ∧
      ∀ before r after id s s', requests = before ++ r :: after →
        (world before).state.segments.get? id = some s → (world (before ++ [r])).state.segments.get? id = some s' →
        ¬ r.Recounts id (serve [] r (world before)).1 → s'.rules = s.rules ∧
          s'.audienceSize = s.audienceSize + Int64.ofNat ((world (before ++ [r])).state.holders id) -
            Int64.ofNat ((world before).state.holders id) := by
  intro world
  constructor
  · intro id s live
    obtain ⟨before, r, after, k, split, recounts, last, lower, upper, customers, size⟩ :=
      served_size (w := .start .empty clock supply) (fun _ => rfl) .empty fresh live
    refine ⟨before, r, after, k, split, recounts, last, lower, upper, customers, ?_⟩
    intro counted exact small least most
    have sum : s.audienceSize = Int64.ofInt exact := by
      rw [size, show World.clock (.start Memory.empty clock supply) = clock from rfl, storedSize_eq_ofInt small,
        ← Int64.ofInt_eq_ofNat, ← Int64.ofInt_eq_ofNat, ← Int64.ofInt_add, ← Int64.ofInt_sub]
    rw [sum, Int64.toInt_ofInt_of_le least most]
  · rintro before r after id s s' rfl live live' other
    have keyed : (world before).Keyed := served_keyed _ .empty
    have later : world (before ++ [r]) = (serve [] r (world before)).2 := served_concat before r _
    have sooner : (world (before ++ [r])).Follows (world (before ++ r :: after)) := by
      have whole : world (before ++ r :: after) = served after (world (before ++ [r])) := by
        simp only [world, served, serveAll, List.map_append, List.map_cons, List.foldl_append, List.foldl_cons,
          List.map_nil, List.foldl_nil]
      rw [whole]
      exact served_follows _ _
    have fresh := sooner.issuedIds.sublist.nodup fresh
    rw [later] at fresh live' ⊢
    rcases serve_settled r fresh keyed live' with ⟨recounts, _⟩ | ⟨_, s₀, live₀, rules, balance⟩
    · exact absurd recounts other
    · rw [live] at live₀
      cases live₀
      refine ⟨rules, ?_⟩
      grind

/-- A customer who is active is counted, and one who is put into the segment later is added: the second
counts twice when the rules are counted again, and once until then. -/
theorem audience_size_conserved_overlap :
    let rules : List Rule := [.single "status" "equals" (.string "active")]
    let requests : List Request :=
      [.createCustomer ⟨.named "Ada", none⟩, .createSegment ⟨"Active", none, rules, true⟩ "ops",
        .createCustomer ⟨{ Profile.named "Bo" with segments := .ofList [Uuid.counting 1] }, none⟩]
    let world (run : List Request) := served run (.start .empty (fun _ => .epoch) Uuid.counting)
    (world requests).issuedIds.Nodup ∧
      ∃ s, (world requests).state.segments.get? (Uuid.counting 1) = some s ∧ s.audienceSize = 2 ∧
        ∃ before r after, requests = before ++ r :: after ∧
          s.audienceSize.toInt = ((world before).state.audience s.rules .epoch : Int) +
            (world requests).state.holders (Uuid.counting 1) - (world before).state.holders (Uuid.counting 1) := by
  intro rules requests
  have fresh : (served requests (.start .empty (fun _ => .epoch) Uuid.counting)).issuedIds.Nodup := by
    decide +kernel
  have live : (served requests (.start .empty (fun _ => .epoch) Uuid.counting)).state.segments.get? (Uuid.counting 1) =
      some ⟨Uuid.counting 1, "Active", none, rules, 2, true, .epoch, .epoch, "ops"⟩ := by decide +kernel
  have now : (served requests (.start .empty (fun _ => .epoch) Uuid.counting)).state.holders (Uuid.counting 1) = 1 := by
    decide +kernel
  have small : ∀ n < 3, (served (requests.take n) (.start .empty (fun _ => .epoch) Uuid.counting)).state.audience
      rules .epoch < 3 ∧ (served (requests.take n) (.start .empty (fun _ => .epoch) Uuid.counting)).state.holders
      (Uuid.counting 1) < 3 := by decide +kernel
  obtain ⟨before, r, after, k, split, _, _, _, _, _, size⟩ := (audience_size_conserved requests fresh).1 _ _ live
  have shorter : before.length < 3 := by
    have := congrArg List.length split
    simp only [requests, List.length_append, List.length_cons, List.length_nil] at this
    omega
  obtain ⟨counted, held⟩ := small before.length shorter
  rw [show requests.take before.length = before by rw [split, List.take_left]] at counted held
  intro world
  refine ⟨fresh, _, live, rfl, before, r, after, split, size ?_ ?_ ?_⟩ <;> simp only [now] <;> omega

end CustomerSegments.Service
