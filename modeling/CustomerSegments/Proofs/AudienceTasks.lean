import CustomerSegments.Proofs.Calls
import CustomerSegments.Proofs.MemoryCalls

namespace CustomerSegments

namespace World

variable {σ : Type}

/-- A world that differs from another one by the time and the counts alone. -/
structure Idles (w w' : World σ) : Prop where
  follows : w.Follows w'
  state : w'.state = w.state
  issued : w'.issued = w.issued

theorem Idles.refl (w : World σ) : w.Idles w :=
  ⟨.refl w, rfl, rfl⟩

theorem Idles.trans {w mid w' : World σ} (first : w.Idles mid) (rest : mid.Idles w') : w.Idles w' :=
  ⟨first.follows.trans rest.follows, rest.state.trans first.state, rest.issued.trans first.issued⟩

theorem idles_tick (w : World σ) : w.Idles w.tick :=
  ⟨⟨rfl, rfl, Nat.le_succ _, List.suffix_rfl⟩, rfl, rfl⟩

theorem idles_next (w : World σ) : w.Idles (w.next w.state) :=
  ⟨⟨rfl, rfl, Nat.le_succ _, List.suffix_rfl⟩, rfl, rfl⟩

theorem idles_note (w : World σ) (metric : Metric) (amount : Nat) : w.Idles (w.note metric amount) :=
  ⟨⟨rfl, rfl, Nat.le_refl _, List.suffix_rfl⟩, rfl, rfl⟩

theorem follows_next (w : World σ) (state : σ) : w.Follows (w.next state) :=
  ⟨rfl, rfl, Nat.le_succ _, List.suffix_rfl⟩

theorem follows_issue (entity : Entity) (w : World σ) : w.Follows (w.issue entity) :=
  ⟨rfl, rfl, Nat.le_refl _, List.suffix_cons _ _⟩

end World

namespace Memory

/-- The number of stored customers that a rule list means at a time. -/
def audience (m : Memory) (rules : List Rule) (now : Instant) : Nat :=
  m.customers.values.countP fun c => (compile rules now).predicate.holds c.toJson

variable {m : Memory} {other : Uuid}

/-- A list of additions moves the size of a live segment once for every time it occurs in the list. -/
theorem get?_bump_all {delta : Int64} {ids : List Uuid} {m : Memory} :
    (ids.foldl (fun m id => m.bump delta id) m).segments.get? other =
      (m.segments.get? other).map fun s =>
        { s with audienceSize := s.audienceSize + Int64.ofNat (ids.count other) * delta } := by
  induction ids generalizing m with
  | nil => simp
  | cons head rest ih =>
    rw [List.foldl_cons, ih, bump, get?_revise, Option.map_map]
    congr 1
    funext s
    simp only [Function.comp_apply, List.count_cons, beq_iff_eq]
    by_cases same : head = other
    · simp only [if_pos same, Int64.ofNat_add, Segment.mk.injEq, and_true, true_and]
      grind
    · simp only [if_neg same, Nat.add_zero]

theorem customers_bump_all {delta : Int64} {ids : List Uuid} {m : Memory} :
    (ids.foldl (fun m id => m.bump delta id) m).customers = m.customers := by
  induction ids generalizing m with
  | nil => rfl
  | cons head rest ih => rw [List.foldl_cons, ih, bump, customers_revise]

end Memory

namespace Audience

open Store Service

variable {failing : List Method} {w w' : World Memory}

theorem noteDrops_idles (failing : List Method) (dropped : List Drop) (w : World Memory) :
    w.Idles (runInMemory failing (noteDrops dropped) w).2 := by
  induction dropped generalizing w with
  | nil => exact .refl w
  | cons drop rest ih =>
    rw [noteDrops, runInMemory_bind, runInMemory_tally]
    exact (w.idles_note _ _).trans (ih _)

/-- Counting compiles the rules at the reading of the clock at which it starts. -/
theorem countRules_cases {rules : List Rule} {o : Except Error Nat}
    (ends : Ends failing (countRules rules) w o w') :
    w.Idles w' ∧ w.readings < w'.readings ∧
      (o = .ok (w.state.audience rules (w.clock w.readings)) ∨
        o = .error (.store .unavailable) ∧ Method.countMatching ∈ failing) := by
  unfold countRules at ends
  have ends := Ends.sure_bind_iff.1 (Ends.now_bind_iff.1 ends)
  have idle := noteDrops_idles failing (compile rules (w.clock w.readings)).dropped w.tick
  have passed : w.readings < (runInMemory failing
      (noteDrops (compile rules (w.clock w.readings)).dropped) w.tick).2.readings :=
    Nat.lt_of_lt_of_le (Nat.lt_succ_self _) idle.follows.readings
  have idle := w.idles_tick.trans idle
  unfold count at ends
  split at ends
  · next isNothing =>
    obtain ⟨rfl, rfl⟩ := Ends.pure_iff.1 ends
    have zero : w.state.audience rules (w.clock w.readings) = 0 := by
      have : (compile rules (w.clock w.readings)).predicate = .nothing := by
        cases shape : (compile rules (w.clock w.readings)).predicate <;> simp_all [Predicate.isNothing]
      simp [Memory.audience, this, Predicate.holds]
    exact ⟨idle, passed, .inl (by rw [zero])⟩
  · rcases Ends.call_iff.1 ends with ⟨fails, rfl, rfl⟩ | ⟨_, rfl, rfl⟩
    · exact ⟨idle, passed, .inr ⟨rfl, fails⟩⟩
    · refine ⟨idle.trans (World.idles_next _), Nat.lt_succ_of_lt passed, .inl ?_⟩
      rw [idle.state]
      rfl

/-- A recount either changes nothing or writes the number of customers that the rules mean at its first
reading of the clock, whatever the size was before. -/
theorem recompute_cases {id : Uuid} {rules : List Rule} {o : Except Error Nat}
    (ends : Ends failing (recompute id rules) w o w') :
    (w.Idles w' ∧ ((o = .error (.store .unavailable) ∧ failing ≠ []) ∨
        o = .error (.missing .segment id) ∧ w.state.segments.get? id = none)) ∨
      ∃ s now, w.state.segments.get? id = some s ∧
        o = .ok (w.state.audience rules (w.clock w.readings)) ∧
        w.Follows w' ∧ w'.issued = w.issued ∧ w.readings < w'.readings ∧
        w'.state = w.state.resize id (storedSize (w.state.audience rules (w.clock w.readings))) now := by
  unfold recompute at ends
  rcases Ends.bind_iff.1 ends with ⟨size, counted, first, ends⟩ | ⟨e, first, rfl⟩
  · obtain ⟨idle, passed, outcome | ⟨outcome, _⟩⟩ := countRules_cases first
    · cases outcome
      rcases Ends.call_bind_iff.1 ends with ⟨fails, rfl, rfl⟩ | ⟨_, ⟨_, answered, ends⟩ | ⟨e, answered, rfl, rfl⟩⟩
      · exact .inl ⟨idle, .inl ⟨rfl, List.ne_nil_of_mem fails⟩⟩
      · have ends := Ends.sure_bind_iff.1 ends
        obtain ⟨rfl, rfl⟩ := Ends.pure_iff.1 ends
        simp only [Memory.answer_setAudienceSize, idle.state] at answered
        cases found : w.state.segments.get? id with
        | none =>
          simp only [found] at answered
          cases answered
        | some s =>
          refine .inr ⟨s, counted.clock counted.readings, rfl, rfl, ?_, idle.issued, ?_, ?_⟩
          · exact idle.follows.trans ((counted.follows_next _).trans (World.idles_note _ _ _).follows)
          · exact Nat.lt_succ_of_lt passed
          · change (Memory.answer _ _ counted.state).2 = _
            rw [Memory.answer_setAudienceSize, idle.state]
      · simp only [Memory.answer_setAudienceSize, idle.state] at answered ⊢
        cases found : w.state.segments.get? id with
        | none =>
          simp only [found] at answered
          cases answered
          refine .inl ⟨?_, .inr ⟨rfl, rfl⟩⟩
          simp only [Memory.resize, Memory.revise, found]
          exact idle.trans (idle.state ▸ counted.idles_next)
        | some s =>
          simp only [found] at answered
          cases answered
    · cases outcome
  · obtain ⟨idle, _, outcome | ⟨outcome, fails⟩⟩ := countRules_cases first
    · cases outcome
    · cases outcome
      exact .inl ⟨idle, .inl ⟨rfl, List.ne_nil_of_mem fails⟩⟩

/-- A batch of additions reaches the live segments and reports the others, if the additions can be made
at all. -/
theorem runInMemory_applyDelta (failing : List Method) (delta : Int64) (ids : List Uuid) (w : World Memory) :
    let ran := runInMemory failing (applyDelta delta ids) w
    w.Follows ran.2 ∧ ran.2.issued = w.issued ∧
      if Method.incrementAudienceSize ∈ failing then ran.1 = ⟨[], ids⟩ ∧ ran.2.state = w.state
      else
        ran.1 = ⟨ids.filter (w.state.segments.contains ·), ids.filter (!w.state.segments.contains ·)⟩ ∧
          ran.2.state = ids.foldl (fun m id => m.bump delta id) w.state := by
  refine ⟨runInMemory_follows _ _ _, ?_⟩
  induction ids generalizing w with
  | nil =>
    refine ⟨rfl, ?_⟩
    split <;> exact ⟨rfl, rfl⟩
  | cons id rest ih =>
    rw [applyDelta, runInMemory_bind, runInMemory_call]
    by_cases fails : Method.incrementAudienceSize ∈ failing
    · have failed : (Call.incrementAudienceSize id delta).method ∈ failing := fails
      simp only [if_pos failed, runInMemory_bind, runInMemory_tally, runInMemory_pure, if_pos fails] at ih ⊢
      obtain ⟨issued, outcome, state⟩ := ih (w.note .deltasFailed 1)
      rw [outcome]
      exact ⟨issued, rfl, state⟩
    · have works : ¬ (Call.incrementAudienceSize id delta).method ∈ failing := fails
      have alive (other : Uuid) : (w.state.bump delta id).segments.contains other = w.state.segments.contains other := by
        simp only [Table.contains, Memory.bump, Memory.get?_revise, Option.isSome_map]
      simp only [if_neg works, if_neg fails, Memory.answer_incrementAudienceSize] at ih ⊢
      cases found : w.state.segments.get? id with
      | none =>
        have gone : w.state.segments.contains id = false := by simp only [Table.contains, found, Option.isSome_none]
        simp only [runInMemory_bind, runInMemory_tally, runInMemory_pure]
        obtain ⟨issued, outcome, state⟩ := ih ((w.next (w.state.bump delta id)).note .deltasFailed 1)
        rw [outcome]
        refine ⟨issued, ?_, state⟩
        simp only [World.note, World.next, alive, List.filter_cons, gone, Bool.not_false, if_true]
        rfl
      | some s =>
        have live : w.state.segments.contains id = true := by simp only [Table.contains, found, Option.isSome_some]
        simp only [runInMemory_bind, runInMemory_tally, runInMemory_pure]
        obtain ⟨issued, outcome, state⟩ := ih ((w.next (w.state.bump delta id)).note .deltasApplied 1)
        rw [outcome]
        refine ⟨issued, ?_, state⟩
        simp only [World.note, World.next, alive, List.filter_cons, live, Bool.not_true, if_true]
        rfl

end Audience

end CustomerSegments
