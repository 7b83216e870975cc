import CustomerSegments.Proofs.AudienceCounts
import CustomerSegments.Proofs.FieldPaths
import CustomerSegments.Proofs.LiveMemberships
import CustomerSegments.Proofs.RuleTests

namespace CustomerSegments

namespace Customer

/-- The record of a customer without the segments that the customer was put into. -/
def unassigned (c : Customer) : Customer :=
  c.withSegments .empty

variable {c : Customer} {field : String}

theorem get?_unassigned {name : String} (apart : name ≠ "segments") :
    c.unassigned.toJson.get? name = c.toJson.get? name := by
  rw [get?_toJson, get?_toJson]
  simp only [members, Profile.members, List.cons_append, List.nil_append, Json.lookup_cons_eq, if_neg apart]
  rfl

theorem get?_segments (c : Customer) : c.toJson.get? "segments" = some c.segments.toJson := by
  rw [get?_toJson]
  rfl

/-- Behind a membership list no path goes on, so that only its own name leads to it. -/
theorem lookup?_unassigned (apart : field ≠ "segments") :
    c.unassigned.toJson.lookup? (pathOf field) = c.toJson.lookup? (pathOf field) := by
  obtain ⟨name, rest, path⟩ := List.exists_cons_of_ne_nil (pathOf_ne_nil field)
  rw [path, Json.lookup?_cons, Json.lookup?_cons]
  by_cases listed : name = "segments"
  · subst listed
    have further : rest ≠ [] := by
      rintro rfl
      exact apart (eq_of_pathOf_eq_singleton path)
    rw [get?_segments, get?_segments, Option.bind_some, Option.bind_some, IdSet.toJson, IdSet.toJson,
      Json.lookup?_array _ further, Json.lookup?_array _ further]
  · rw [get?_unassigned listed]

theorem resolve_unassigned (apart : field ≠ "segments") :
    resolve c.unassigned.toJson field = resolve c.toJson field := by
  rw [resolve, resolve, lookup?_unassigned apart, get?_unassigned (by decide)]

end Customer

/-- No other field of a rule means the memberships. -/
theorem storedField_ne_segments {field : String} (apart : field ≠ "segments") : storedField field ≠ "segments" := by
  unfold storedField
  split <;> first | decide | exact apart

/-- The conditions of a rule list see no memberships if no rule that is not left out is on the field `segments`. -/
theorem holds_compile_unassigned {rules : List Rule} {now : Instant}
    (unread : ∀ r ∈ rules, (r.condition? now).isSome → Text.trim r.field ≠ "segments") (c : Customer) :
    (compile rules now).predicate.holds c.unassigned.toJson = (compile rules now).predicate.holds c.toJson :=
  holds_compile_congr fun r inRules kept =>
    Customer.resolve_unassigned (storedField_ne_segments (unread r inRules kept))

theorem Json.Storable.unassigned {c : Customer} (storable : c.toJson.Storable) : c.unassigned.toJson.Storable := by
  obtain ⟨spent, free⟩ := Customer.storable_iff.1 storable
  exact Customer.storable_iff.2 ⟨spent, free⟩

namespace Store.Host

open Service

variable {h h' : Host} {w : World h.State} {w' : World h'.State} {cs cs' : List Customer} {rules : List Rule}
  {now : Instant}

theorem meant_unassigned (unread : ∀ r ∈ rules, (r.condition? now).isSome → Text.trim r.field ≠ "segments") :
    meant (cs.map Customer.unassigned) rules now = meant cs rules now := by
  rw [meant, List.countP_map]
  exact List.countP_congr fun c _ => by rw [Function.comp_apply, holds_compile_unassigned unread]

/-- A rule list counts so many customers at present, and a recomputation stores this number for any segment: it does so
unless the store meets a fault, and it always does for a live segment of a state that is reached. -/
structure Recounts (h : Host) (w : World h.State) (rules : List Rule) (n : Nat) : Prop where
  counted : (h.run (Audience.countRules rules).run w).1 = .ok n
  stored : ∀ id, h.HasSegment id w.state →
    h.Yields (Audience.recompute id rules) w fun size w' => size = n ∧ h.Sized id n w'
  live : h.Reached w.state → ∀ id g, h.answer (.getSegment id) w = .ok (some g) →
    ∃ w' g', h.Ends (Audience.recompute id rules) w (.ok n) w' ∧ h.answer (.getSegment id) w' = .ok (some g') ∧
      g'.audienceSize = Audience.storedSize n

theorem recounts_meant (time : w.clock w.readings = now) (listed : h.answer .listCustomers w = .ok cs) :
    h.Recounts w rules (meant cs rules now) := by
  have known : h.customers w.state = .ok cs := (answer_listCustomers_eq w).symm.trans listed
  obtain ⟨_, _, counted⟩ := countRules_ends rules time known
  refine ⟨congrArg Prod.fst counted, fun id => recompute_yields time known, fun reached id g shown => ?_⟩
  obtain ⟨m, represents, _⟩ := reached.represents
  obtain ⟨stored, live⟩ := (live_iff represents).2 ⟨g, shown⟩
  -- A look at the segment right afterwards meets no fault either.
  have faultless : h.Faultless (Segments.recount id rules).run w :=
    represents.faultless (recount_calls (fun _ => ⟨.of_storable trivial, nofun⟩)
      (fun _ _ => ⟨.of_storable trivial, nofun⟩) (fun _ => ⟨.of_storable trivial, nofun⟩) id rules).asks
  have recomputed : h.Yields (Audience.recompute id rules) w fun size w' =>
      size = meant cs rules now ∧ h.Sized id (meant cs rules now) w' :=
    recompute_yields time known (represents.hasSegment live)
  obtain ⟨_, w', ends, rfl, sized⟩ := recomputed faultless.first
  have got : h.Yields (Segments.get id) w' fun g' _ => h.answer (.getSegment id) w' = .ok (some g') :=
    get_yields sized.there fun _ _ read => read
  obtain ⟨g', _, _, read⟩ := got (faultless.rest ends)
  exact ⟨w', g', ends, read, sized.size g' read⟩

/-- Memberships play no part in counts. If two stores, of one kind or of two, list customers that differ only in
their segments, then a rule list counts as many in both at the same time, and a recomputation stores the same
size in both, provided that no rule is on the field `segments` but for rules that are left out. -/
theorem recounts_alike (unread : ∀ r ∈ rules, (r.condition? now).isSome → Text.trim r.field ≠ "segments")
    (time : w.clock w.readings = now) (time' : w'.clock w'.readings = now)
    (listed : h.answer .listCustomers w = .ok cs) (listed' : h'.answer .listCustomers w' = .ok cs')
    (alike : (cs.map Customer.unassigned).Perm (cs'.map Customer.unassigned)) :
    ∃ n, h.Recounts w rules n ∧ h'.Recounts w' rules n := by
  have same : meant cs' rules now = meant cs rules now :=
    calc
      meant cs' rules now = meant (cs'.map Customer.unassigned) rules now := (meant_unassigned unread).symm
      _ = meant (cs.map Customer.unassigned) rules now := (alike.countP_eq _).symm
      _ = meant cs rules now := meant_unassigned unread
  exact ⟨meant cs rules now, recounts_meant time listed, same ▸ recounts_meant time' listed'⟩

/-- In memory and on a server a segment that Ada is in counts her as active, and one that she is not in counts her
too. -/
theorem recounts_alike_of_active :
    let rules : List Rule := [.single "status" "equals" (.string "active")]
    let ada := memberOf whales.id
    let alike (h : Host) : Prop :=
      h.Recounts (h.occupied ada) rules 1 ∧ h.Recounts (h.occupied ada.unassigned) rules 1 ∧
        ∀ c ∈ [ada, ada.unassigned], ∃ w' g', h.Ends (Audience.recompute whales.id rules) (h.occupied c) (.ok 1) w' ∧
          h.answer (.getSegment whales.id) w' = .ok (some g') ∧ g'.audienceSize = 1
    (∀ r ∈ rules, (r.condition? .epoch).isSome → Text.trim r.field ≠ "segments") ∧
      ada.segments ≠ ada.unassigned.segments ∧ alike .memory ∧ alike (.server ⟨"audience", 1⟩) := by
  intro rules ada alike
  have unread : ∀ r ∈ rules, (r.condition? .epoch).isSome → Text.trim r.field ≠ "segments" := by decide +kernel
  have both (h : Host) : alike h := by
    have stores : h.Stores (.insertCustomer ada) := .of_storable (memberOf_storable whales.id)
    have stores' : h.Stores (.insertCustomer ada.unassigned) := .of_storable (memberOf_storable whales.id).unassigned
    have alone {c : Customer} (stores : h.Stores (.insertCustomer c)) :
        h.answer .listCustomers (h.occupied c) = .ok [c] := by
      obtain ⟨cs, listed, all⟩ := answer_listCustomers (occupied_represents stores).1
      rw [values_occupant] at all
      rw [listed, List.singleton_perm.1 all]
    have listed := alone stores
    have epoch {c : Customer} (stores : h.Stores (.insertCustomer c)) :
        (h.occupied c).clock (h.occupied c).readings = .epoch :=
      (occupied_represents stores).2.1 _
    obtain ⟨n, counts, counts'⟩ :=
      recounts_alike unread (epoch stores) (epoch stores') listed (alone stores') (.refl _)
    obtain ⟨_, _, counted⟩ :=
      countRules_ends rules (epoch stores) ((answer_listCustomers_eq (h.occupied ada)).symm.trans listed)
    have one : meant [ada] rules .epoch = 1 := by decide +kernel
    rw [one] at counted
    cases counts.counted.symm.trans (congrArg Prod.fst counted)
    have recomputed {c : Customer} (stores : h.Stores (.insertCustomer c))
        (recounts : h.Recounts (h.occupied c) rules 1) :
        ∃ w' g', h.Ends (Audience.recompute whales.id rules) (h.occupied c) (.ok 1) w' ∧
          h.answer (.getSegment whales.id) w' = .ok (some g') ∧ g'.audienceSize = 1 := by
      have live : (occupant c).Live whales.id := ⟨whales, rfl⟩
      obtain ⟨g, shown⟩ := (live_iff (occupied_represents stores).1).1 live
      obtain ⟨w', g', ends, read, size⟩ := recounts.live (reached_occupied stores) whales.id g shown
      exact ⟨w', g', ends, read, size⟩
    refine ⟨counts, counts', fun c mem => ?_⟩
    rcases List.mem_pair.1 mem with rfl | rfl
    · exact recomputed stores counts
    · exact recomputed stores' counts'
  exact ⟨unread, by decide +kernel, both _, both _⟩

/-- A rule on the field `segments` does see memberships. -/
example :
    let rules : List Rule := [.single "segments" "equals" (.string whales.id.text)]
    let member := memberOf whales.id
    (compile rules .epoch).predicate.holds member.toJson = true ∧
      (compile rules .epoch).predicate.holds member.unassigned.toJson = false := by
  decide +kernel

end Store.Host

end CustomerSegments
