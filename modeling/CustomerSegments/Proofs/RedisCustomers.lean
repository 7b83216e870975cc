import CustomerSegments.Proofs.RecordLoading

namespace CustomerSegments.Redis

open Server (Keeps)

theorem fetch_settles {α : Type} {d : Json.Decoder α} {s : Server} {key : String} {o : Option α} (loads : Loads d s key o) :
    Settles (fetch d key) s (.ok o) s := by
  cases o with
  | none =>
    have stored : s.string? key = .ok none := loads
    exact (Settles.get stored).bind (.pure _)
  | some a =>
    obtain ⟨text, stored, read⟩ := loads
    exact (Settles.get stored).bind ((Settles.settled (decode_of_ok read)).map some)

namespace HoldsCustomers

variable {l : Layout} {s s' : Server} {t : Table Uuid Customer} {c : Customer}

theorem loads (holds : HoldsCustomers l s t) (id : Uuid) :
    Loads Customer.decoder s (l.customerKey id.text) (t.get? id) := by
  have stored := holds.record id
  cases live : t.get? id with
  | none =>
    rw [live] at stored
    exact stored
  | some c =>
    rw [live] at stored
    exact ⟨c.text, stored, Customer.decodeText_text (holds.sound live).2⟩

theorem getCustomer (holds : HoldsCustomers l s t) (id : Uuid) : Settles (l.getCustomer id) s (.ok (t.get? id)) s :=
  fetch_settles (holds.loads id)

/-- The record of one customer is written. -/
theorem put (holds : HoldsCustomers l s t) (storable : c.toJson.Storable) {changed : List Slot}
    (keeps : Keeps l changed s s') (others : ∀ id, .customer id ∈ changed → id = c.id)
    (record : s'.string? (l.key (.customer c.id)) = .ok (some c.text))
    (ids : ∃ ids, s'.set? (l.key .customers) = .ok ids ∧ ids.ByText (t.insert c.id c) fun _ => ()) :
    HoldsCustomers l s' (t.insert c.id c) := by
  refine ⟨ids, fun id => ?_, fun {id c'} live => ?_⟩
  · rw [Table.get?_insert]
    by_cases same : c.id = id
    · subst same
      rw [if_pos rfl]
      exact record
    · rw [if_neg same, keeps.string? fun mem => same (others id mem).symm]
      exact holds.record id
  · rw [Table.get?_insert] at live
    split at live
    · next same =>
      cases live
      exact ⟨same, storable⟩
    · exact holds.sound live

theorem insertCustomer (holds : HoldsCustomers l s t) (storable : c.toJson.Storable) :
    ∃ s', Settles (l.insertCustomer c) s (.ok ()) s' ∧ HoldsCustomers l s' (t.insert c.id c) ∧
      Keeps l [.customer c.id, .customers] s s' := by
  obtain ⟨ids, known, byText⟩ := holds.ids
  obtain ⟨s₁, set, record, keeps₁⟩ := Settles.set l (.customer c.id) s c.text
  rw [← keeps₁.set? (by simp)] at known
  obtain ⟨s₂, add, members, keeps₂⟩ := Settles.sadd l .customers known c.id.text
  have keeps := keeps₁.trans keeps₂
  rw [← keeps₂.string? (by simp)] at record
  have held := holds.put storable keeps (fun id mem => by simpa using mem) record ⟨_, members, byText.insert c.id c⟩
  exact ⟨s₂, set.bind add, held, keeps⟩

theorem updateCustomer_of_live {old : Customer} (holds : HoldsCustomers l s t) (storable : c.toJson.Storable)
    (live : t.get? c.id = some old) :
    ∃ s', Settles (l.updateCustomer c) s (.ok ()) s' ∧ HoldsCustomers l s' (t.insert c.id c) ∧
      Keeps l [.customer c.id] s s' := by
  obtain ⟨ids, known, byText⟩ := holds.ids
  have stored := holds.record c.id
  rw [live] at stored
  obtain ⟨s₁, set, record, keeps⟩ := Settles.set l (.customer c.id) s c.text
  rw [← keeps.set? (by simp)] at known
  have held := holds.put storable keeps (fun id mem => by simpa using mem) record ⟨ids, known, byText.replace live rfl⟩
  exact ⟨s₁, (Settles.contains stored).bind set, held, keeps⟩

theorem updateCustomer_of_gone (holds : HoldsCustomers l s t) (gone : t.get? c.id = none) :
    Settles (l.updateCustomer c) s (.error (.missing .customer c.id)) s := by
  have stored := holds.record c.id
  rw [gone] at stored
  exact (Settles.contains stored).bind (.throw _)

theorem deleteCustomer (holds : HoldsCustomers l s t) (id : Uuid) :
    ∃ s', Settles (l.deleteCustomer id) s (.ok (t.get? id)) s' ∧ HoldsCustomers l s' (t.erase id) ∧
      Keeps l [.customer id, .customers] s s' := by
  have found := holds.getCustomer id
  cases live : t.get? id with
  | none =>
    rw [live] at found
    rw [Table.erase_of_get?_eq_none live]
    exact ⟨s, found.bind (.pure _), holds, fun _ _ => rfl⟩
  | some c =>
    rw [live] at found
    obtain ⟨ids, known, byText⟩ := holds.ids
    obtain ⟨s₁, del, record, keeps₁⟩ := Settles.del l (.customer id) s
    rw [← keeps₁.set? (by simp)] at known
    obtain ⟨s₂, rem, members, keeps₂⟩ := Settles.srem l .customers known id.text
    have keeps := keeps₁.trans keeps₂
    rw [← keeps₂.string? (by simp)] at record
    refine ⟨s₂, found.bind (del.bind (rem.bind (.pure _))), ⟨⟨_, members, byText.erase id⟩, fun other => ?_, ?_⟩, keeps⟩
    · rw [Table.get?_erase]
      by_cases same : id = other
      · subst same
        rw [if_pos rfl]
        exact record
      · rw [if_neg same, keeps.string? (by simpa [eq_comm] using same)]
        exact holds.record other
    · intro other c live
      rw [Table.get?_erase] at live
      split at live
      · cases live
      · exact holds.sound live

theorem listCustomers (holds : HoldsCustomers l s t) :
    ∃ listed, Settles l.listCustomers s (.ok (Store.newestFirst Customer.createdAt listed)) s ∧ listed.Perm t.values := by
  obtain ⟨ids, known, byText⟩ := holds.ids
  obtain ⟨listed, loaded, perm⟩ := loadAll_table (l := l) known byText holds.loads
  rw [Table.filterMap_get?_keys] at perm
  exact ⟨listed, loaded.bind (.pure _), perm⟩

end HoldsCustomers

end CustomerSegments.Redis
