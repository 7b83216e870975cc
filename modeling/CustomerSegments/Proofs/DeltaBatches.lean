import CustomerSegments.Proofs.FailingMethods
import CustomerSegments.Proofs.ShownStates

namespace CustomerSegments

namespace Audience

variable {size delta : Int64}

/-- A new size within 64 bits is the sum. -/
theorem toInt_add_ofInt {n : Int} (least : -9223372036854775808 ≤ size.toInt + n)
    (most : size.toInt + n ≤ 9223372036854775807) : (size + Int64.ofInt n).toInt = size.toInt + n := by
  have cut : (Int64.ofInt n).toInt = n.bmod (2 ^ 64) := Int64.toInt_ofInt
  rw [Int64.toInt_add, cut, Int.add_bmod_bmod]
  exact Int.bmod_eq_of_le (by omega) (by omega)

theorem toInt_add_times {n : Nat} (least : -9223372036854775808 ≤ size.toInt + n * delta.toInt)
    (most : size.toInt + n * delta.toInt ≤ 9223372036854775807) :
    (size + Int64.ofNat n * delta).toInt = size.toInt + n * delta.toInt := by
  have product : Int64.ofNat n * delta = Int64.ofInt (n * delta.toInt) := by
    rw [Int64.ofInt_mul, Int64.ofInt_toInt, Int64.ofInt_eq_ofNat]
  rw [product, toInt_add_ofInt least most]

end Audience

namespace Memory

variable {m : Memory} {delta : Int64} {id : Uuid} {ids : List Uuid}

/-- Every live segment can take one addition for each time that it occurs in a list. -/
def HasRoom (m : Memory) (delta : Int64) (ids : List Uuid) : Prop :=
  ∀ id g, m.segments.get? id = some g →
    -9223372036854775808 ≤ g.audienceSize.toInt + ids.count id * delta.toInt ∧
      g.audienceSize.toInt + ids.count id * delta.toInt ≤ 9223372036854775807

theorem HasRoom.fits (room : m.HasRoom delta (id :: ids)) : (Store.Call.incrementAudienceSize id delta).Fits m := by
  intro g live
  obtain ⟨least, most⟩ := room id g live
  have lower := g.audienceSize.le_toInt
  have upper := g.audienceSize.toInt_lt
  rw [List.count_cons_self] at least most
  -- One addition lies between none and all of them.
  rcases Int.le_total 0 delta.toInt with grows | shrinks
  · have := Int.mul_nonneg (Int.natCast_nonneg (ids.count id)) grows
    constructor <;> grind
  · have := Int.mul_nonneg (Int.natCast_nonneg (ids.count id)) (Int.neg_nonneg_of_nonpos shrinks)
    constructor <;> grind

theorem HasRoom.tail (room : m.HasRoom delta (id :: ids)) : (m.bump delta id).HasRoom delta ids := by
  intro other g live
  rw [bump, get?_revise, Option.map_eq_some_iff] at live
  obtain ⟨g₀, known, rfl⟩ := live
  have space := room other g₀ known
  by_cases same : id = other
  · subst same
    rw [List.count_cons_self] at space
    simp only [if_true, room.fits.toInt_add known]
    constructor <;> grind
  · rw [List.count_cons_of_ne same] at space
    simp only [if_neg same]
    exact space

theorem names_bump_all : (ids.foldl (fun m id => m.bump delta id) m).names = m.names := by
  induction ids generalizing m with
  | nil => rfl
  | cons head rest ih => rw [List.foldl_cons, ih, bump, names_revise]

theorem contains_bump (m : Memory) (delta : Int64) (id other : Uuid) :
    (m.bump delta id).segments.contains other = m.segments.contains other := by
  simp only [Table.contains, bump, get?_revise, Option.isSome_map]

end Memory

namespace Store.Host

open Redis

variable {h : Host} {w : World h.State} {m : Memory} {failing : List Method} {delta : Int64} {ids : List Uuid}

/-- Additions that are never called fail one and all. -/
theorem run_applyDelta_of_failing (fails : Method.incrementAudienceSize ∈ failing) (delta : Int64) (ids : List Uuid)
    (w : World h.State) :
    (h.run (withFailing failing (Audience.applyDelta delta ids)) w).1 = ⟨[], ids⟩ ∧
      (h.run (withFailing failing (Audience.applyDelta delta ids)) w).2.state = w.state := by
  induction ids generalizing w with
  | nil =>
    rw [show withFailing failing (Audience.applyDelta delta []) = pure .empty from rfl, run_pure]
    exact ⟨rfl, rfl⟩
  | cons id rest ih =>
    obtain ⟨outcome, state⟩ := ih (w.note .deltasFailed 1)
    rw [Audience.applyDelta, withFailing_bind, run_bind,
      withFailing_call_of_failing (c := .incrementAudienceSize id delta) fails, run_pure]
    simp only [withFailing_bind, withFailing_tally, withFailing_pure, run_bind, run_tally, run_pure, outcome, state]
    exact ⟨rfl, rfl⟩

/-- Additions reach the live segments, in the order of the list, and report the others. -/
theorem run_applyDelta (works : Method.incrementAudienceSize ∉ failing) (shows : h.Shows w.state m)
    (room : m.HasRoom delta ids) :
    (h.run (withFailing failing (Audience.applyDelta delta ids)) w).1 =
        ⟨ids.filter (m.segments.contains ·), ids.filter (!m.segments.contains ·)⟩ ∧
      h.Shows (h.run (withFailing failing (Audience.applyDelta delta ids)) w).2.state
        (ids.foldl (fun m id => m.bump delta id) m) := by
  -- The additions made so far are in the state: what is live does not depend on them.
  induction ids generalizing w m with
  | nil =>
    rw [show withFailing failing (Audience.applyDelta delta []) = pure .empty from rfl, run_pure]
    exact ⟨rfl, shows⟩
  | cons id rest ih =>
    obtain ⟨o, s', readings, ends, shows', answered⟩ := shows.increment_of_fits room.fits
    have ran : h.run (call (.incrementAudienceSize id delta)).run w = (o, _) := ends
    rw [Audience.applyDelta, withFailing_bind, run_bind,
      withFailing_call_of_working (c := .incrementAudienceSize id delta) works, ran]
    cases o with
    | ok size =>
      have live : m.segments.contains id = true := answered.symm
      obtain ⟨outcome, left⟩ :=
        ih (w := ({ w with state := s', readings := readings } : World h.State).note .deltasApplied 1) shows' room.tail
      simp only [Memory.contains_bump] at outcome
      simp only [withFailing_bind, withFailing_tally, withFailing_pure, run_bind, run_tally, run_pure, outcome,
        List.filter_cons, live, Bool.not_true, if_true]
      exact ⟨rfl, left⟩
    | error e =>
      have gone : m.segments.contains id = false := answered.symm
      obtain ⟨outcome, left⟩ :=
        ih (w := ({ w with state := s', readings := readings } : World h.State).note .deltasFailed 1) shows' room.tail
      simp only [Memory.contains_bump] at outcome
      simp only [withFailing_bind, withFailing_tally, withFailing_pure, run_bind, run_tally, run_pure, outcome,
        List.filter_cons, gone, Bool.not_false, if_true]
      exact ⟨rfl, left⟩

/-- A batch of additions, in memory or on a server, whether or not the additions can be made at all. Every occurrence
of an identifier in the list is either applied or failed, in the order of the list: it is applied if the additions do not
fail and the segment is live. Then the size of each segment has moved once for each of its applied occurrences,
and nothing else has changed. -/
theorem applyDelta_accounts (h : Host) (w : World h.State) (m : Memory) (failing : List Method) (delta : Int64)
    (ids : List Uuid) (shows : h.Shows w.state m)
    (room : Method.incrementAudienceSize ∉ failing → m.HasRoom delta ids) :
    let ran := h.run (withFailing failing (Audience.applyDelta delta ids)) w
    let reaches (id : Uuid) : Bool := decide (Method.incrementAudienceSize ∉ failing) && m.segments.contains id
    ran.1 = ⟨ids.filter (reaches ·), ids.filter (!reaches ·)⟩ ∧
      ∃ m', h.Shows ran.2.state m' ∧ m'.customers = m.customers ∧ m'.names = m.names ∧
        ∀ id, (m.segments.get? id = none → m'.segments.get? id = none) ∧
          ∀ g, m.segments.get? id = some g → ∃ g', m'.segments.get? id = some g' ∧
            g' = { g with audienceSize := g'.audienceSize } ∧
            g'.audienceSize.toInt = g.audienceSize.toInt + ran.1.applied.count id * delta.toInt := by
  intro ran reaches
  by_cases fails : Method.incrementAudienceSize ∈ failing
  · obtain ⟨outcome, state⟩ := run_applyDelta_of_failing fails delta ids w
    have none (id : Uuid) : reaches id = false := by simp [reaches, fails]
    have applied : ids.filter (reaches ·) = [] :=
      List.filter_eq_nil_iff.2 fun id _ => by rw [none id]; exact Bool.false_ne_true
    have failed : ids.filter (!reaches ·) = ids := List.filter_eq_self.2 fun id _ => by rw [none id]; rfl
    have outcome : ran.1 = ⟨[], ids⟩ := outcome
    rw [outcome, applied, failed]
    refine ⟨rfl, m, ?_, rfl, rfl, fun id => ⟨fun gone => gone, fun g live => ⟨g, live, rfl, by simp⟩⟩⟩
    rw [show ran.2.state = w.state from state]
    exact shows
  · obtain ⟨outcome, left⟩ := run_applyDelta fails shows (room fails)
    have all (id : Uuid) : reaches id = m.segments.contains id := by simp [reaches, fails]
    have outcome : ran.1 = ⟨ids.filter (m.segments.contains ·), ids.filter (!m.segments.contains ·)⟩ := outcome
    rw [outcome]
    refine ⟨by simp only [all], _, left, Memory.customers_bump_all, Memory.names_bump_all, fun id => ⟨?_, ?_⟩⟩
    · intro gone
      rw [Memory.get?_bump_all, gone, Option.map_none]
    · intro g live
      have counted : (ids.filter (m.segments.contains ·)).count id = ids.count id :=
        List.count_filter (by rw [Table.contains, live, Option.isSome_some])
      obtain ⟨least, most⟩ := room fails id g live
      rw [counted]
      refine ⟨_, by rw [Memory.get?_bump_all, live, Option.map_some], rfl, ?_⟩
      exact Audience.toInt_add_times least most

/-- A segment that is named twice loses two customers twice, and one that is not there is reported. -/
theorem applyDelta_accounts_of_repeated :
    let m : Memory := ⟨.empty, .insert .empty whales.id whales, .insert .empty whales.name whales.id⟩
    let ids := [whales.id, Uuid.counting 5, whales.id]
    let ran := run .memory (withFailing [.ping] (Audience.applyDelta (-2) ids)) (.start m (fun _ => .epoch) Uuid.counting)
    m.HasRoom (-2) ids ∧ ran.1 = ⟨[whales.id, whales.id], [Uuid.counting 5]⟩ ∧
      ∃ g, ran.2.state.segments.get? whales.id = some g ∧ g.audienceSize.toInt = -4 := by
  intro m ids ran
  have room : m.HasRoom (-2) ids := by
    intro id g live
    have stored : m.segments.get? id = if whales.id = id then some whales else none := Table.get?_insert
    rw [stored] at live
    split at live
    · next same =>
      cases live
      subst same
      decide +kernel
    · cases live
  obtain ⟨outcome, m', shows, _, _, sizes⟩ :=
    applyDelta_accounts .memory (.start m (fun _ => .epoch) Uuid.counting) m [.ping] (-2) ids (shows_memory m) fun _ => room
  obtain ⟨g, known, _, size⟩ := (sizes whales.id).2 whales (by decide +kernel)
  have state : ran.2.state = m' := shows.represents
  have outcome : ran.1 = ⟨[whales.id, whales.id], [Uuid.counting 5]⟩ := outcome.trans (by decide +kernel)
  refine ⟨room, outcome, g, state ▸ known, size.trans ?_⟩
  rw [show (run .memory (withFailing [.ping] (Audience.applyDelta (-2) ids)) (.start m (fun _ => .epoch) Uuid.counting)).1 =
    ⟨[whales.id, whales.id], [Uuid.counting 5]⟩ from outcome]
  decide +kernel

end Store.Host

end CustomerSegments
