import CustomerSegments.Proofs.DeltaBatches
import CustomerSegments.Proofs.SharedCounters

namespace CustomerSegments

namespace IdSet

theorem gain_self (set : IdSet) (id : Uuid) : set.gain set id = 0 :=
  Int.sub_self _

theorem gain_add (first middle last : IdSet) (id : Uuid) :
    first.gain last id = first.gain middle id + middle.gain last id := by
  unfold gain
  omega

theorem diff_empty (set : IdSet) : set.diff empty = set := by
  have kept : set.toList.filter (· ∉ empty) = set.toList :=
    List.filter_eq_self.2 fun id _ => decide_eq_true not_mem_empty
  cases set
  simpa only [diff, mk.injEq] using kept

theorem empty_diff (set : IdSet) : empty.diff set = empty := rfl

end IdSet

namespace Audience

/-- The edits of a membership set that goes through other ones. -/
def customerMoved (before : IdSet) : List IdSet → Store.Action Unit
  | [] => pure ()
  | after :: rest => do
    let _ ← customerUpdated before after
    customerMoved after rest

end Audience

namespace Memory

variable {m mid m' : Memory} {first middle last held set : IdSet} {sets : List IdSet} {delta : Int64}

/-- The store after one membership set gave way to another in the sizes. -/
structure Moved (before after : IdSet) (m m' : Memory) : Prop where
  customers : m'.customers = m.customers
  names : m'.names = m.names
  segments : ∀ id, m'.segments.get? id = (m.segments.get? id).map fun g =>
    { g with audienceSize := g.audienceSize + Int64.ofInt (before.gain after id) }

namespace Moved

theorem trans (before : Moved first middle m mid) (after : Moved middle last mid m') : Moved first last m m' := by
  refine ⟨after.customers.trans before.customers, after.names.trans before.names, fun id => ?_⟩
  rw [after.segments, before.segments, Option.map_map]
  congr 1
  funext g
  rw [Function.comp_apply, IdSet.gain_add first middle last, Int64.ofInt_add, Int64.add_assoc]

theorem unique (moved : Moved first last m m') (moved' : Moved first last m mid) : m' = mid := by
  have segments : m'.segments = mid.segments := Table.ext fun id => by rw [moved.segments, moved'.segments]
  cases m'
  cases mid
  cases segments
  cases moved.customers.trans moved'.customers.symm
  cases moved.names.trans moved'.names.symm
  rfl

theorem refl (set : IdSet) (m : Memory) : Moved set set m m := by
  refine ⟨rfl, rfl, fun id => ?_⟩
  have none : Int64.ofInt 0 = 0 := rfl
  simp only [IdSet.gain_self, none, Int64.add_zero, Option.map_id']

end Moved

/-- No size leaves 64 bits if one membership set gives way to another. -/
def Admits (m : Memory) (first last : IdSet) : Prop :=
  ∀ id g, m.segments.get? id = some g →
    -9223372036854775808 ≤ g.audienceSize.toInt + first.gain last id ∧
      g.audienceSize.toInt + first.gain last id ≤ 9223372036854775807

theorem admits_self (m : Memory) (set : IdSet) : m.Admits set set := by
  intro id g _
  have lower := g.audienceSize.le_toInt
  have upper := g.audienceSize.toInt_lt
  rw [IdSet.gain_self]
  omega

/-- Where a chain ends is one of its sets, or where it began. -/
theorem admits_last (admits : ∀ set ∈ sets, m.Admits first set) : m.Admits first (sets.getLastD first) := by
  by_cases none : sets = []
  · subst none
    exact admits_self m first
  · have ends : sets.getLastD first = sets.getLast none := by
      rw [List.getLastD_eq_getLast?, List.getLast?_eq_some_getLast none, Option.getD_some]
    exact ends ▸ admits _ (List.getLast_mem none)

theorem Moved.toInt_size {id : Uuid} {g : Segment} (moved : Moved first last m m') (admits : m.Admits first last)
    (live : m.segments.get? id = some g) :
    ∃ g', m'.segments.get? id = some g' ∧ g' = { g with audienceSize := g'.audienceSize } ∧
      g'.audienceSize.toInt = g.audienceSize.toInt + first.gain last id := by
  obtain ⟨least, most⟩ := admits id g live
  refine ⟨_, by rw [moved.segments, live, Option.map_some], rfl, ?_⟩
  rw [Audience.toInt_add_ofInt (by omega) (by omega)]

theorem Moved.admits (moved : Moved first middle m m') (here : m.Admits first middle) (there : m.Admits first last) :
    m'.Admits middle last := by
  intro id g live
  have known := live
  rw [moved.segments, Option.map_eq_some_iff] at known
  obtain ⟨g₀, known, _⟩ := known
  obtain ⟨g', live', _, size⟩ := moved.toInt_size here known
  cases live.symm.trans live'
  have fits := there id g₀ known
  rw [IdSet.gain_add first middle last] at fits
  omega

/-- A list of different segments needs room for one addition each. -/
theorem hasRoom_of_fits (fits : ∀ id ∈ set, (Store.Call.incrementAudienceSize id delta).Fits m) :
    m.HasRoom delta set.toList := by
  intro id g live
  have lower := g.audienceSize.le_toInt
  have upper := g.audienceSize.toInt_lt
  rw [IdSet.count_toList]
  by_cases member : id ∈ set
  · have := fits id member g live
    rw [if_pos member]
    omega
  · rw [if_neg member]
    omega

theorem Admits.gained (admits : m.Admits first last) : m.HasRoom 1 (last.diff first).toList := by
  refine hasRoom_of_fits fun id member g live => ?_
  obtain ⟨now, was⟩ := IdSet.mem_diff.1 member
  have fits := admits id g live
  rw [IdSet.gain, if_pos now, if_neg was] at fits
  have one : (1 : Int64).toInt = 1 := rfl
  omega

/-- What is lost was not gained before. -/
theorem Admits.lost (admits : m.Admits first last) :
    ((last.diff first).toList.foldl (fun m id => m.bump 1 id) m).HasRoom (-1) (first.diff last).toList := by
  refine hasRoom_of_fits fun id member g live => ?_
  obtain ⟨was, now⟩ := IdSet.mem_diff.1 member
  have absent : id ∉ last.diff first := fun gained => now (IdSet.mem_diff.1 gained).1
  rw [get?_bump_all, IdSet.count_toList, if_neg absent, Option.map_eq_some_iff] at live
  obtain ⟨g₀, known, rfl⟩ := live
  have fits := admits id g₀ known
  rw [IdSet.gain, if_neg now, if_pos was] at fits
  have one : (-1 : Int64).toInt = -1 := rfl
  have same : g₀.audienceSize + Int64.ofNat 0 * 1 = g₀.audienceSize := Int64.add_zero _
  dsimp only
  rw [same]
  omega

theorem moved_of_bumps (first last : IdSet) (m : Memory) :
    Moved first last m
      ((first.diff last).toList.foldl (fun m id => m.bump (-1) id)
        ((last.diff first).toList.foldl (fun m id => m.bump 1 id) m)) := by
  refine ⟨?_, ?_, fun id => ?_⟩
  · rw [customers_bump_all, customers_bump_all]
  · rw [names_bump_all, names_bump_all]
  · rw [get?_bump_all, get?_bump_all, Option.map_map]
    congr 1
    funext g
    rw [Function.comp_apply, IdSet.count_toList, IdSet.count_toList, IdSet.gain]
    simp only [IdSet.mem_diff]
    by_cases was : id ∈ first <;> by_cases now : id ∈ last <;> simp [was, now]

end Memory

namespace Store.Host

open Memory

variable {h : Host} {w : World h.State} {m : Memory} {first last : IdSet} {sets : List IdSet}

theorem run_customerUpdated (shows : h.Shows w.state m) (admits : m.Admits first last) :
    ∃ m', h.Shows (h.run (Audience.customerUpdated first last) w).2.state m' ∧ Moved first last m m' := by
  have added := (run_applyDelta List.not_mem_nil shows admits.gained).2
  rw [withFailing_nil] at added
  have removed := (run_applyDelta List.not_mem_nil added admits.lost).2
  rw [withFailing_nil] at removed
  refine ⟨_, ?_, moved_of_bumps first last m⟩
  unfold Audience.customerUpdated
  simp only [run_bind, run_pure]
  exact removed

/-- A new customer comes into its segments from none, and a deleted one goes back to none. -/
theorem run_customerCreated (c : Customer) (w : World h.State) :
    (h.run (Audience.customerCreated c) w).2 = (h.run (Audience.customerUpdated .empty c.segments) w).2 := by
  unfold Audience.customerUpdated Audience.customerCreated
  simp only [run_bind, run_pure, MembershipChange.between, IdSet.diff_empty, IdSet.empty_diff]
  rw [show Audience.applyDelta (-1) IdSet.empty.toList = pure .empty from rfl, run_pure]

theorem run_customerDeleted (c : Customer) (w : World h.State) :
    (h.run (Audience.customerDeleted c) w).2 = (h.run (Audience.customerUpdated c.segments .empty) w).2 := by
  unfold Audience.customerUpdated Audience.customerDeleted
  simp only [run_bind, run_pure, MembershipChange.between, IdSet.diff_empty, IdSet.empty_diff]
  rw [show Audience.applyDelta 1 IdSet.empty.toList = pure .empty from rfl, run_pure]

theorem run_customerMoved (shows : h.Shows w.state m) (admits : ∀ set ∈ sets, m.Admits first set) :
    ∃ m', h.Shows (h.run (Audience.customerMoved first sets) w).2.state m' ∧ Moved first (sets.getLastD first) m m' := by
  -- The sizes after each edit are those of the first state under another set, so the later sets are admitted still.
  induction sets generalizing w m first with
  | nil =>
    refine ⟨m, ?_, .refl first m⟩
    rw [Audience.customerMoved, run_pure]
    exact shows
  | cons set rest ih =>
    have here := admits set (.head rest)
    obtain ⟨mid, shows', moved⟩ := run_customerUpdated shows here
    obtain ⟨m', shows'', later⟩ := ih shows' fun other mem => moved.admits here (admits other (.tail set mem))
    refine ⟨m', ?_, ?_⟩
    · rw [Audience.customerMoved, run_bind]
      exact shows''
    · rw [List.getLastD_cons]
      exact moved.trans later

/-- Edits of a membership set add up to the edit from the first set to the last, in memory and on a server, as long as
no size leaves 64 bits: both ways leave the same store, in which the size of each segment has gained one if it is in
the last set, and lost one if it was in the first. A chain that comes back changes nothing, and neither does a customer who is
created, goes through a chain and is deleted. -/
theorem membership_edits_telescope (h : Host) (w : World h.State) (m : Memory) (shows : h.Shows w.state m) :
    (∀ first sets, (∀ set ∈ sets, m.Admits first set) →
      let last := sets.getLastD first
      ∃ m', h.Shows (h.run (Audience.customerMoved first sets) w).2.state m' ∧
        h.Shows (h.run (Audience.customerUpdated first last) w).2.state m' ∧
        m'.customers = m.customers ∧ m'.names = m.names ∧ (last = first → m' = m) ∧
        ∀ id, (m.segments.get? id = none → m'.segments.get? id = none) ∧
          ∀ g, m.segments.get? id = some g → ∃ g', m'.segments.get? id = some g' ∧
            g' = { g with audienceSize := g'.audienceSize } ∧
            g'.audienceSize.toInt = g.audienceSize.toInt + first.gain last id) ∧
      ∀ created sets deleted, deleted.segments = sets.getLastD created.segments →
        (∀ set ∈ created.segments :: sets, m.Admits .empty set) →
          let life : Store.Action Unit := do
            let _ ← Audience.customerCreated created
            Audience.customerMoved created.segments sets
            let _ ← Audience.customerDeleted deleted
          h.Shows (h.run life w).2.state m := by
  constructor
  · intro first sets admits last
    have direct : m.Admits first last := admits_last admits
    obtain ⟨m', shows', moved⟩ := run_customerMoved shows admits
    obtain ⟨m'', shows'', moved'⟩ := run_customerUpdated shows direct
    obtain rfl : m'' = m' := moved'.unique moved
    refine ⟨m'', shows', shows'', moved'.customers, moved'.names, fun same => ?_, fun id => ⟨fun gone => ?_, fun g live => ?_⟩⟩
    · rw [same] at moved'
      exact moved'.unique (.refl first m)
    · rw [moved'.segments, gone, Option.map_none]
    · exact moved'.toInt_size direct live
  · intro created sets deleted ends admits life
    have born := admits created.segments (.head sets)
    obtain ⟨m₁, shows₁, moved₁⟩ := run_customerUpdated shows born
    obtain ⟨m₂, shows₂, moved₂⟩ :=
      run_customerMoved shows₁ fun set mem => moved₁.admits born (admits set (.tail _ mem))
    have moved := moved₁.trans moved₂
    have gone : m₂.Admits (sets.getLastD created.segments) .empty := by
      have direct := admits_last admits
      rw [List.getLastD_cons] at direct
      exact moved.admits direct (admits_self m .empty)
    obtain ⟨m₃, shows₃, moved₃⟩ := run_customerUpdated shows₂ gone
    obtain rfl : m₃ = m := (moved.trans moved₃).unique (.refl .empty m)
    rw [← run_customerCreated, ← ends, ← run_customerDeleted] at shows₃
    simp only [life, run_bind, run_pure]
    exact shows₃

/-- A customer leaves a segment, comes back, and leaves again. -/
theorem membership_edits_telescope_back_and_forth :
    let m : Memory := ⟨.empty, .insert .empty whales.id whales, .insert .empty whales.name whales.id⟩
    let w : World Memory := .start m (fun _ => .epoch) Uuid.counting
    let first := IdSet.ofList [whales.id]
    let sets := [.ofList [Uuid.counting 5], .ofList [Uuid.counting 5, whales.id], .empty]
    (∀ set ∈ sets, m.Admits first set) ∧
      (run .memory (Audience.customerMoved first sets) w).2.state =
        (run .memory (Audience.customerUpdated first .empty) w).2.state ∧
      ∃ g, (run .memory (Audience.customerMoved first sets) w).2.state.segments.get? whales.id = some g ∧
        g.audienceSize.toInt = -1 := by
  intro m w first sets
  have admits : ∀ set ∈ sets, m.Admits first set := by
    intro set mem id g live
    have stored : m.segments.get? id = if whales.id = id then some whales else none := Table.get?_insert
    rw [stored] at live
    split at live
    · cases live
      rw [show whales.audienceSize.toInt = 0 from rfl, IdSet.gain]
      split <;> split <;> decide
    · cases live
  obtain ⟨m', shows, shows', _, _, _, sizes⟩ :=
    (membership_edits_telescope .memory w m (shows_memory m)).1 first sets admits
  obtain ⟨g, known, _, size⟩ := (sizes whales.id).2 whales (by decide +kernel)
  have state : (run .memory (Audience.customerMoved first sets) w).2.state = m' := shows.represents
  have state' : (run .memory (Audience.customerUpdated first .empty) w).2.state = m' := shows'.represents
  exact ⟨admits, state.trans state'.symm, g, state ▸ known, size.trans (by decide +kernel)⟩

end Store.Host

end CustomerSegments
