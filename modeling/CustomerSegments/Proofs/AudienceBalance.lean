import CustomerSegments.Proofs.Keys
import CustomerSegments.Proofs.Tables

namespace CustomerSegments

namespace IdSet

theorem nodup_toList (set : IdSet) : set.toList.Nodup :=
  List.Pairwise.imp (fun {a b} (before : a.value < b.value) same => Nat.lt_irrefl _ (same ▸ before)) set.sorted

theorem count_toList (set : IdSet) (id : Uuid) : set.toList.count id = if id ∈ set then 1 else 0 :=
  set.nodup_toList.count

end IdSet

namespace Memory

/-- The number of stored customers that hold a segment. -/
def holders (m : Memory) (segment : Uuid) : Nat :=
  m.customers.values.countP (segment ∈ ·.segments)

/-- Every live segment was there before with the same rules, and its size moved with the number of its
holders. -/
structure Steady (m m' : Memory) : Prop where
  before : ∀ {id s'}, m'.segments.get? id = some s' → ∃ s, m.segments.get? id = some s ∧ s'.rules = s.rules ∧
    s'.audienceSize - Int64.ofNat (m'.holders id) = s.audienceSize - Int64.ofNat (m.holders id)

theorem Steady.refl (m : Memory) : Steady m m :=
  ⟨fun live => ⟨_, live, rfl, rfl⟩⟩

theorem Steady.of_eq {m m' : Memory} (same : m' = m) : Steady m m' :=
  same ▸ .refl m

theorem Steady.trans {m mid m' : Memory} (first : Steady m mid) (rest : Steady mid m') : Steady m m' := by
  refine ⟨fun {id s'} live => ?_⟩
  obtain ⟨s, live, rules, balance⟩ := rest.before live
  obtain ⟨s₀, live, rules₀, balance₀⟩ := first.before live
  exact ⟨s₀, live, rules.trans rules₀, balance.trans balance₀⟩

variable {m : Memory} {id other : Uuid} {c old : Customer} {delta : Int64} {ids : List Uuid}

theorem holders_insert_of_absent (absent : m.customers.get? id = none) (segments : Table Uuid Segment)
    (names : Table String Uuid) :
    holders ⟨m.customers.insert id c, segments, names⟩ other = m.holders other + c.segments.toList.count other := by
  rw [holders, Table.countP_insert_of_absent absent, IdSet.count_toList]
  simp only [decide_eq_true_eq]
  rfl

theorem holders_erase_of_live (live : m.customers.get? id = some c) (segments : Table Uuid Segment)
    (names : Table String Uuid) :
    m.holders other = holders ⟨m.customers.erase id, segments, names⟩ other + c.segments.toList.count other := by
  rw [holders, Table.countP_erase_of_live live, IdSet.count_toList]
  simp only [decide_eq_true_eq]
  rfl

theorem holders_insert (segments : Table Uuid Segment) (names : Table String Uuid) :
    holders ⟨m.customers.insert id c, segments, names⟩ other =
      holders ⟨m.customers.erase id, segments, names⟩ other + c.segments.toList.count other := by
  rw [holders, Table.countP_insert, IdSet.count_toList]
  simp only [decide_eq_true_eq]
  rfl

/-- Stripping a customer of one segment leaves all other memberships. -/
theorem mem_strip {segment : Uuid} {now : Instant} (different : other ≠ segment) :
    other ∈ (c.strip segment now).segments ↔ other ∈ c.segments := by
  unfold Customer.strip
  split
  · change other ∈ c.segments.erase segment ↔ _
    rw [IdSet.mem_erase]
    exact ⟨And.left, fun member => ⟨member, different⟩⟩
  · rfl

theorem not_mem_strip {now : Instant} : id ∉ (c.strip id now).segments := by
  unfold Customer.strip
  split
  · change id ∉ c.segments.erase id
    rw [IdSet.mem_erase]
    exact fun member => member.2 rfl
  · assumption

theorem not_mem_of_dismiss {s : Segment} {now : Instant}
    (kept : c ∈ (m.dismiss s id now).customers.values) : id ∉ c.segments := by
  rw [dismiss, Table.values_map, List.mem_map] at kept
  obtain ⟨_, _, rfl⟩ := kept
  exact not_mem_strip

theorem holders_strip {segment : Uuid} {now : Instant} (different : other ≠ segment)
    (segments : Table Uuid Segment) (names : Table String Uuid) :
    holders ⟨m.customers.map (Customer.strip segment now), segments, names⟩ other = m.holders other := by
  rw [holders, Table.values_map, List.countP_map]
  refine List.countP_congr fun c _ => ?_
  simp only [Function.comp_apply, decide_eq_true_eq]
  exact mem_strip different

/-- A store in which only sizes moved, each by its own amount. -/
structure Shifted (shift : Uuid → Int64) (m m' : Memory) : Prop where
  customers : m'.customers = m.customers
  segments : ∀ id, m'.segments.get? id =
    (m.segments.get? id).map fun s => { s with audienceSize := s.audienceSize + shift id }

theorem Shifted.trans {shift shift' : Uuid → Int64} {mid m' : Memory} (first : Shifted shift m mid)
    (rest : Shifted shift' mid m') : Shifted (fun id => shift id + shift' id) m m' := by
  refine ⟨rest.customers.trans first.customers, fun id => ?_⟩
  rw [rest.segments, first.segments, Option.map_map]
  congr 1
  funext s
  simp only [Function.comp_apply, Int64.add_assoc]

theorem shifted_bump_all (ids : List Uuid) (delta : Int64) (m : Memory) :
    Shifted (fun id => Int64.ofNat (ids.count id) * delta) m (ids.foldl (fun m id => m.bump delta id) m) :=
  ⟨customers_bump_all, fun _ => get?_bump_all⟩

/-- Sizes that move exactly as the numbers of holders did keep every balance. -/
theorem Shifted.steady {shift : Uuid → Int64} {mid m' : Memory} (shifted : Shifted shift mid m')
    (sizes : mid.segments = m.segments)
    (moved : ∀ id, Int64.ofNat (mid.holders id) = Int64.ofNat (m.holders id) + shift id) : Steady m m' := by
  refine ⟨fun {id s'} live => ?_⟩
  rw [shifted.segments, sizes] at live
  obtain ⟨s, known, rfl⟩ := Option.map_eq_some_iff.1 live
  refine ⟨s, known, rfl, ?_⟩
  have held : m'.holders id = mid.holders id := by rw [holders, holders, shifted.customers]
  rw [held, moved]
  grind

end Memory

namespace Service

open Store Memory

variable {w w' mid : World Memory}

theorem applyDelta_shifted (delta : Int64) (ids : List Uuid) (w : World Memory) :
    Shifted (fun id => Int64.ofNat (ids.count id) * delta) w.state
      (runInMemory [] (Audience.applyDelta delta ids) w).2.state := by
  obtain ⟨_, _, _, state⟩ := Audience.runInMemory_applyDelta [] delta ids w
  rw [state]
  exact shifted_bump_all ids delta w.state

theorem customerUpdated_shifted (before after : IdSet) (w : World Memory) :
    Shifted (fun id => Int64.ofNat ((after.diff before).toList.count id) * 1 +
        Int64.ofNat ((before.diff after).toList.count id) * -1) w.state
      (runInMemory [] (Audience.customerUpdated before after) w).2.state := by
  unfold Audience.customerUpdated
  simp only [runInMemory_bind, runInMemory_pure]
  exact (applyDelta_shifted _ _ _).trans (applyDelta_shifted _ _ _)

/-- The members gained less the members lost make up the difference of two sets. -/
theorem count_difference (before after : IdSet) (id : Uuid) :
    Int64.ofNat (after.toList.count id) = Int64.ofNat (before.toList.count id) +
      (Int64.ofNat ((after.diff before).toList.count id) * 1 + Int64.ofNat ((before.diff after).toList.count id) * -1) := by
  simp only [IdSet.count_toList, IdSet.mem_diff]
  by_cases was : id ∈ before <;> by_cases now : id ∈ after <;> simp [was, now]

theorem createCustomer_steady {request : NewCustomer} {o : Except Error CustomerChange}
    (ends : Ends [] (Customers.create request) w o w') (fresh : w'.issuedIds.Nodup) (keyed : w.Keyed) :
    w.state.Steady w'.state := by
  rcases Customers.create_cases ends with ⟨_, state, _⟩ | ⟨_, c, _, mid, _, _, issued, state, _, rfl⟩
  · exact .of_eq state
  · refine (applyDelta_shifted 1 _ mid).steady (by rw [state]) fun id => ?_
    have fresh := (runInMemory_follows _ _ _).issuedIds.sublist.nodup fresh
    rw [World.issuedIds, issued, List.map_cons, List.nodup_cons] at fresh
    have absent : w.state.customers.get? c.id = none := by
      cases live : w.state.customers.get? c.id with
      | none => rfl
      | some c => exact absurd (keyed.customer live).2 fresh.1
    rw [state, holders_insert_of_absent absent, Int64.ofNat_add, Int64.mul_one]

theorem updateCustomer_steady {id : Uuid} {patch : CustomerPatch} {o : Except Error CustomerChange}
    (ends : Ends [] (Customers.update id patch) w o w') (keyed : w.Keyed) : w.state.Steady w'.state := by
  rcases Customers.update_cases (fun _ _ live => (keyed.customer live).1) ends with ⟨idle, _⟩ |
    ⟨old, c, now, mid, live, _, _, _, _, state, outcome⟩
  · exact .of_eq idle.state
  · have moved (other : Uuid) : Int64.ofNat (mid.state.holders other) + Int64.ofNat (old.segments.toList.count other) =
        Int64.ofNat (w.state.holders other) + Int64.ofNat (c.segments.toList.count other) := by
      rw [state, holders_insert, holders_erase_of_live live w.state.segments w.state.names]
      simp only [Int64.ofNat_add]
      grind
    split at outcome
    · obtain ⟨_, rfl⟩ := outcome
      refine (customerUpdated_shifted old.segments c.segments mid).steady (by rw [state]) fun other => ?_
      have difference := count_difference old.segments c.segments other
      have moved := moved other
      grind
    · next same =>
      obtain ⟨_, rfl⟩ := outcome
      have same : old.segments = c.segments := Classical.not_not.1 same
      refine ⟨fun {other s} live => ⟨s, ?_, rfl, ?_⟩⟩
      · rwa [state] at live
      · have moved := moved other
        rw [same] at moved
        grind

theorem deleteCustomer_steady {id : Uuid} {o : Except Error DeltaOutcome}
    (ends : Ends [] (Customers.delete id) w o w') : w.state.Steady w'.state := by
  rcases Customers.delete_cases ends with ⟨idle, _⟩ | ⟨c, mid, live, _, _, state, _, rfl⟩
  · exact .of_eq idle.state
  · refine (applyDelta_shifted (-1) _ mid).steady (by rw [state]) fun other => ?_
    rw [state, holders_erase_of_live live w.state.segments w.state.names, Int64.ofNat_add]
    grind

theorem deleteSegment_steady {id : Uuid} {o : Except Error Nat} (ends : Ends [] (Segments.delete id) w o w') :
    w.state.Steady w'.state := by
  rcases Segments.delete_cases ends with ⟨idle, _⟩ | ⟨s, now, _, _, _, _, ⟨_, failed, _⟩ | ⟨_, state⟩⟩
  · exact .of_eq idle.state
  · cases failed
  · refine ⟨fun {other s'} live => ⟨s', ?_, rfl, ?_⟩⟩
    · rw [state, Table.get?_erase] at live
      split at live
      · cases live
      · exact live
    · rw [state, Table.get?_erase] at live
      rw [state, holders_strip]
      rintro rfl
      rw [if_pos rfl] at live
      cases live

end Service

end CustomerSegments
