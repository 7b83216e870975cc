import CustomerSegments.Proofs.Listings
import CustomerSegments.Proofs.RedisCustomers

namespace CustomerSegments

/-- Changed values put in one after the other. -/
def Table.putAll (f : Customer → Customer) (cs : List Customer) (t : Table Uuid Customer) : Table Uuid Customer :=
  cs.foldl (fun t c => t.insert c.id (f c)) t

theorem Table.get?_putAll {f : Customer → Customer} {cs : List Customer} (distinct : (cs.map (·.id)).Nodup)
    (t : Table Uuid Customer) (id : Uuid) :
    (t.putAll f cs).get? id = ((cs.find? (·.id = id)).map f).or (t.get? id) := by
  induction cs generalizing t with
  | nil => rfl
  | cons c rest ih =>
    obtain ⟨new, others⟩ := List.nodup_cons.1 distinct
    change ((t.insert c.id (f c)).putAll f rest).get? id = _
    rw [ih others, get?_insert]
    by_cases same : c.id = id
    · have unlike : rest.find? (·.id = id) = none := by
        rw [List.find?_eq_none]
        intro c' mem found
        exact new (List.mem_map.2 ⟨c', mem, (of_decide_eq_true found).trans same.symm⟩)
      have first : (c :: rest).find? (·.id = id) = some c := List.find?_cons_of_pos (decide_eq_true same)
      rw [unlike, if_pos same, first]
      rfl
    · have later : (c :: rest).find? (·.id = id) = rest.find? (·.id = id) :=
        List.find?_cons_of_neg (by simpa using same)
      rw [if_neg same, later]

theorem Customer.strip_of_not_mem {segment : Uuid} {now : Instant} {c : Customer} (free : segment ∉ c.segments) :
    c.strip segment now = c :=
  if_neg free

theorem Customer.id_strip (segment : Uuid) (now : Instant) (c : Customer) : (c.strip segment now).id = c.id := by
  unfold Customer.strip
  split <;> rfl

namespace Redis.HoldsCustomers

open Server (Keeps)

variable {l : Layout} {s : Server} {t : Table Uuid Customer} {c : Customer} {segment : Uuid} {now : Instant}

/-- With nobody else at the server, the first swap is made. -/
theorem stripSegment (holds : HoldsCustomers l s t) (live : t.get? c.id = some c) (member : segment ∈ c.segments)
    (now : Instant) (rounds : Nat) :
    ∃ s', Settles (l.stripSegment now segment c.id (rounds + 1)) s (.ok true) s' ∧
      HoldsCustomers l s' (t.insert c.id (c.strip segment now)) ∧ Keeps l [.customer c.id] s s' := by
  have storable := (holds.sound live).2
  have stored := holds.record c.id
  rw [live] at stored
  obtain ⟨ids, known, byText⟩ := holds.ids
  obtain ⟨s₁, swap, record, keeps⟩ := Settles.compareAndSet l (.customer c.id) stored (c.strip segment now).text
  rw [← keeps.set? (by simp)] at known
  have read := Settles.settled (s := s) (decode_of_ok (Customer.decodeText_text storable))
  have held : HoldsCustomers l s₁ (t.insert c.id (c.strip segment now)) := by
    have own := Customer.id_strip segment now c
    have put := holds.put (c := c.strip segment now) (Customer.storable_strip storable segment now) keeps
      (fun id mem => by simpa [own] using mem)
    rw [own] at put
    exact put record ⟨ids, known, byText.replace live rfl⟩
  refine ⟨s₁, ?_, held, keeps⟩
  rw [Layout.stripSegment]
  refine (Settles.get stored).bind (read.bind ?_)
  rw [if_pos member]
  exact swap.bind (.pure _)

/-- Each customer that holds the segment loses it and is counted; the others are left as they are. -/
theorem stripAll {cs : List Customer} (holds : HoldsCustomers l s t) (distinct : (cs.map (·.id)).Nodup)
    (stored : ∀ c ∈ cs, t.get? c.id = some c) (segment : Uuid) (now : Instant) :
    ∃ s', Settles (l.stripAll now segment cs) s (.ok (cs.countP (segment ∈ ·.segments))) s' ∧
      HoldsCustomers l s' (t.putAll (Customer.strip segment now) cs) ∧
      Keeps l (cs.map fun c => .customer c.id) s s' := by
  induction cs generalizing s t with
  | nil => exact ⟨s, .pure 0, holds, .refl s⟩
  | cons c rest ih =>
    obtain ⟨new, others⟩ := List.nodup_cons.1 distinct
    have live := stored c List.mem_cons_self
    -- No swap touches the record of a customer that is still to come.
    have later : ∀ c' ∈ rest, (t.insert c.id (c.strip segment now)).get? c'.id = some c' := by
      intro c' mem
      have apart : c.id ≠ c'.id := fun same => new (List.mem_map.2 ⟨c', mem, same.symm⟩)
      rw [Table.get?_insert, if_neg apart]
      exact stored c' (List.mem_cons_of_mem _ mem)
    by_cases member : segment ∈ c.segments
    · obtain ⟨s₁, strip, held, keeps⟩ := holds.stripSegment live member now 7
      obtain ⟨s₂, strips, holds', keeps'⟩ := ih held others later
      refine ⟨s₂, ?_, holds', keeps.trans keeps'⟩
      have counted : (c :: rest).countP (segment ∈ ·.segments) = rest.countP (segment ∈ ·.segments) + 1 :=
        List.countP_cons_of_pos (decide_eq_true member)
      rw [counted, Layout.stripAll, if_pos member]
      exact strip.bind (strips.bind (.pure _))
    · rw [Customer.strip_of_not_mem member, Table.insert_of_get?_eq_some live] at later
      obtain ⟨s₁, strips, holds', keeps⟩ := ih holds others later
      have same : t.putAll (Customer.strip segment now) (c :: rest) = t.putAll (Customer.strip segment now) rest := by
        rw [Table.putAll, List.foldl_cons, Customer.strip_of_not_mem member, Table.insert_of_get?_eq_some live]
        rfl
      rw [same]
      refine ⟨s₁, ?_, holds', fun slot kept => keeps slot fun mem => kept (List.mem_cons_of_mem _ mem)⟩
      have counted : (c :: rest).countP (segment ∈ ·.segments) = rest.countP (segment ∈ ·.segments) :=
        List.countP_cons_of_neg (by simpa using member)
      rw [counted, Layout.stripAll, if_neg member]
      exact (Settles.pure false).bind (strips.bind (.pure _))

theorem ids_nodup (holds : HoldsCustomers l s t) : (t.values.map (·.id)).Nodup := by
  have own : t.values.map (·.id) = t.keys := by
    rw [Table.values, Table.keys, List.map_map]
    exact List.map_congr_left fun e mem => (holds.sound (Table.get?_eq_some_iff.2 mem)).1
  rw [own]
  exact t.nodup_keys

theorem get?_of_mem_values (holds : HoldsCustomers l s t) (mem : c ∈ t.values) : t.get? c.id = some c := by
  obtain ⟨id, live⟩ := Table.mem_values_iff.1 mem
  rw [(holds.sound live).1]
  exact live

/-- To change every customer found in a table is to change the table. -/
theorem putAll_eq_map {f : Customer → Customer} {cs : List Customer} (holds : HoldsCustomers l s t) (all : cs.Perm t.values) :
    t.putAll f cs = t.map f := by
  ext1 id
  rw [Table.get?_putAll ((all.map _).nodup_iff.2 holds.ids_nodup), Table.get?_map]
  cases found : cs.find? (·.id = id) with
  | none =>
    cases live : t.get? id with
    | none => rfl
    | some c =>
      have mem := all.mem_iff.2 (Table.mem_values_iff.2 ⟨id, live⟩)
      have unlike := List.find?_eq_none.1 found c mem
      exact absurd (decide_eq_true (holds.sound live).1) unlike
  | some c =>
    have live := holds.get?_of_mem_values (all.mem_iff.1 (List.mem_of_find?_eq_some found))
    have own : c.id = id := by simpa using List.find?_some found
    rw [own] at live
    rw [live]
    rfl

theorem removeSegmentFromAll {w : World Server} (holds : HoldsCustomers l w.state t) (segment : Uuid) :
    ∃ s', SettlesIn w (l.removeSegmentFromAll segment) (.ok (t.values.countP (segment ∈ ·.segments))) s' ∧
      HoldsCustomers l s' (t.map (Customer.strip segment (w.clock w.readings))) ∧
      ∃ changed, (∀ slot ∈ changed, slot.ofCustomers = true) ∧ Keeps l changed w.state s' := by
  obtain ⟨listed, found, all⟩ := holds.listCustomers
  have all := (Store.newestFirst_perm Customer.createdAt listed).trans all
  have distinct := (all.map (·.id)).nodup_iff.2 holds.ids_nodup
  have stored : ∀ c ∈ Store.newestFirst Customer.createdAt listed, t.get? c.id = some c := fun c mem =>
    holds.get?_of_mem_values (all.mem_iff.1 mem)
  obtain ⟨s', strips, held, keeps⟩ := holds.stripAll distinct stored segment (w.clock w.readings)
  rw [all.countP_eq] at strips
  rw [holds.putAll_eq_map all] at held
  refine ⟨s', .now_bind (found.bind strips), held, _, fun slot mem => ?_, keeps⟩
  obtain ⟨c, _, rfl⟩ := List.mem_map.1 mem
  rfl

theorem countMatching (holds : HoldsCustomers l s t) (p : Predicate) :
    Settles (l.operation (.countMatching p)) s (.ok (t.values.countP fun c => p.holds c.toJson)) s := by
  obtain ⟨listed, found, all⟩ := holds.listCustomers
  have all := (Store.newestFirst_perm Customer.createdAt listed).trans all
  rw [← all.countP_eq]
  exact found.bind (.pure _)

end Redis.HoldsCustomers

end CustomerSegments
