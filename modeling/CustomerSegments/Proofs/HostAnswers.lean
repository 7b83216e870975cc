import CustomerSegments.Proofs.AudienceBalance
import CustomerSegments.Proofs.ServerAnswers

namespace CustomerSegments

namespace Store.Host

open Redis

variable {h : Host} {w w' : World h.State} {m : Memory} {cs : List Customer} {id : Uuid} {name : String}

/-- The customers as they are listed. -/
def customers : (h : Host) → h.State → Except Error (List Customer)
  | memory, m => .ok (newestFirst Customer.createdAt m.customers.values)
  | server l, s => l.listed s

/-- A segment is stored and listed, whether its record can be read or not. -/
def HasSegment : (h : Host) → Uuid → h.State → Prop
  | memory, id, m => ∃ g, m.segments.get? id = some g
  | server l, id, s => s.HasRecord l id ∧ s.Lists l id

/-- A name belongs to no segment but one, which may take it. -/
def Concedes : (h : Host) → String → Uuid → h.State → Prop
  | memory, name, id, m => ∀ owner, m.names.get? name = some owner → owner = id
  | server l, name, id, s => s.Concedes l name id

namespace Represents

variable {state : h.State}

theorem hasSegment {g : Segment} (represents : h.Represents state m) (live : m.segments.get? id = some g) :
    h.HasSegment id state := by
  cases h with
  | memory =>
    obtain rfl : state = m := represents
    exact ⟨g, live⟩
  | server l =>
    obtain ⟨r, stored, same⟩ := represents.segments.record id
    obtain ⟨ids, known, byText⟩ := represents.segments.ids
    rw [live] at same
    cases r with
    | none => exact same.elim
    | some r =>
      have listed : ids.get? id.text = some () := by rw [byText.get?_text, live, Option.map_some]
      exact ⟨⟨r.text, stored⟩, ids, known, by rw [Table.contains, listed, Option.isSome_some]⟩

theorem concedes (represents : h.Represents state m) (owned : ∀ owner, m.names.get? name = some owner → owner = id) :
    h.Concedes name id state := by
  cases h with
  | memory =>
    obtain rfl : state = m := represents
    exact owned
  | server l =>
    intro names owner known leads
    cases represents.segments.names.symm.trans known
    rw [Table.get?_map] at leads
    obtain ⟨other, named, rfl⟩ := Option.map_eq_some_iff.1 leads
    rw [owned other named]

end Represents

/-- A call that only looks is answered from the state alone, which it leaves as it is. -/
def Looks (h : Host) (c : Call) : Prop :=
  ∀ s : h.State, ∃ o, ∀ w, w.state = s → ∃ readings, h.Ends (call c) w o { w with readings := readings }

namespace Looks

variable {c : Call}

theorem of_memory {answers : Memory → c.Answer} (known : ∀ now m, Memory.answer c now m = (answers m, m)) :
    Looks .memory c := by
  intro m
  refine ⟨answers m, fun w same => ⟨w.readings + 1, ?_⟩⟩
  subst same
  have ends := ends_memory c w
  rw [known] at ends
  exact ends

theorem of_settles {l : Layout} (settles : ∀ s, ∃ o, Settles (l.operation c) s o s) : Looks (.server l) c := by
  intro s
  obtain ⟨o, settles⟩ := settles s
  refine ⟨o, fun w same => ?_⟩
  subst same
  exact ends_server (settles.run w rfl)

theorem ends (looks : h.Looks c) (w : World h.State) :
    ∃ readings, h.Ends (call c) w (h.answer c w) { w with readings := readings } := by
  obtain ⟨o, ends⟩ := looks w.state
  obtain ⟨readings, ends⟩ := ends w rfl
  exact ⟨readings, ends.answer ▸ ends⟩

theorem answer_congr (looks : h.Looks c) (same : w'.state = w.state) : h.answer c w' = h.answer c w := by
  obtain ⟨o, ends⟩ := looks w.state
  obtain ⟨_, here⟩ := ends w rfl
  obtain ⟨_, there⟩ := ends w' same
  rw [here.answer, there.answer]

theorem getSegment (h : Host) (id : Uuid) : h.Looks (.getSegment id) := by
  cases h with
  | memory => exact of_memory fun _ _ => rfl
  | server l => exact of_settles fun s => ⟨_, (getSegment_any l id s).choose_spec.1⟩

theorem findSegmentByName (h : Host) (name : String) : h.Looks (.findSegmentByName name) := by
  cases h with
  | memory => exact of_memory fun _ _ => rfl
  | server l => exact of_settles fun s => ⟨_, (findSegmentByName_any l name s).choose_spec.1⟩

theorem countMatching (h : Host) (p : Predicate) : h.Looks (.countMatching p) := by
  cases h with
  | memory => exact of_memory fun _ _ => rfl
  | server l => exact of_settles fun s => ⟨_, countMatching_any l p s⟩

end Looks

theorem answer_listCustomers_eq (w : World h.State) : h.answer .listCustomers w = h.customers w.state := by
  cases h with
  | memory => exact answer_memory .listCustomers w
  | server l => exact answer_server (c := .listCustomers) (listCustomers_any l w.state)

theorem answer_countMatching_of_listed (p : Predicate) (known : h.customers w.state = .ok cs) :
    h.answer (.countMatching p) w = .ok (cs.countP fun c => p.holds c.toJson) := by
  cases h with
  | memory =>
    cases known
    rw [answer_memory, (newestFirst_perm _ _).countP_eq]
    rfl
  | server l =>
    rw [answer_server (countMatching_any l p w.state), show l.listed w.state = .ok cs from known]
    rfl

theorem faultOnly_getSegment (h : Host) (id : Uuid) (w : World h.State) : FaultOnly (h.answer (.getSegment id) w) := by
  cases h with
  | memory =>
    rw [answer_memory]
    exact .ok _
  | server l =>
    obtain ⟨o, found, fault, -⟩ := getSegment_any l id w.state
    rwa [answer_server (c := .getSegment id) found]

/-- What a call does not touch on a server stays. -/
theorem get?_kept {l : Layout} {c : Call} {o : c.Answer} {w w' : World Server} {slot : Slot}
    (ends : Ends (.server l) (call c) w o w') (apart : ¬Touches c slot) :
    w'.state.get? (l.key slot) = w.state.get? (l.key slot) := by
  have left : (Server.run (l.realize (call c).run) w).2 = w' := congrArg Prod.snd ends
  have only : (call c).run.AsksOnly (Effect.Within fun call => call = c) := Program.asksOnly_request rfl
  rw [← left]
  refine Server.run_realize_keeps only ?_ w
  rintro call rfl other touches same
  exact apart (Layout.key_injective same ▸ touches)

/-- Whichever segment is updated, one that is stored stays so. Only a fault refuses the update of one that is stored
itself, to a name that no other one has. -/
theorem updateSegment_ends (g : Segment) (w : World h.State) :
    ∃ s' readings, h.Ends (call (.updateSegment g)) w (h.answer (.updateSegment g) w)
        { w with state := s', readings := readings } ∧
      (h.HasSegment g.id w.state → h.Concedes g.name g.id w.state → FaultOnly (h.answer (.updateSegment g) w)) ∧
      ∀ id, h.answer (.updateSegment g) w = .ok () → h.HasSegment id w.state → h.HasSegment id s' := by
  cases h with
  | memory =>
    have ends := ends_memory (.updateSegment g) w
    rw [ends.answer]
    refine ⟨_, _, ends, fun ⟨old, live⟩ concedes => ?_, fun id _ ⟨old, live⟩ =>
      Memory.live_after (w.clock w.readings) nofun live⟩
    cases moved : Memory.renamed? g.id old.name g.name w.state.names with
    | some names =>
      rw [Memory.answer_updateSegment_of_free live moved]
      exact .ok _
    | none =>
      obtain ⟨-, owner, taken, other⟩ := Memory.renamed?_eq_none_iff.1 moved
      exact absurd (concedes owner taken) other
  | server l =>
    obtain ⟨o, s', settles, fault, recorded⟩ := updateSegment_any l g w.state
    obtain ⟨readings, ends⟩ := ends_server (c := .updateSegment g) (settles.run w rfl)
    have kept {slot : Slot} (apart : ¬Touches (.updateSegment g) slot) :
        s'.get? (l.key slot) = w.state.get? (l.key slot) := get?_kept ends apart
    rw [ends.answer]
    refine ⟨s', readings, ends, fun there => fault there.1, fun id done => ?_⟩
    rintro ⟨⟨text, stored⟩, ids, known, listed⟩
    refine ⟨?_, ids, ?_, listed⟩
    · by_cases own : g.id = id
      · exact own ▸ ⟨_, recorded done⟩
      · refine ⟨text, ?_⟩
        rw [Server.string?, kept (by simp [Touches, Ne.symm own])]
        exact stored
    · rw [show l.segmentsKey = l.key .segments from rfl, Server.set?, kept (by simp [Touches])]
      exact known

/-- A size that is set is the one that is seen. For a segment that is stored only a fault refuses to set it. -/
theorem setAudienceSize_ends (id : Uuid) (size : Int64) (w : World h.State) :
    ∃ s' readings, h.Ends (call (.setAudienceSize id size)) w (h.answer (.setAudienceSize id size) w)
        { w with state := s', readings := readings } ∧
      (h.HasSegment id w.state → FaultOnly (h.answer (.setAudienceSize id size) w)) ∧
      (h.answer (.setAudienceSize id size) w = .ok () → h.HasSegment id w.state → ∀ w', w'.state = s' →
        h.answer (.getSegment id) w' ≠ .ok none ∧
          ∀ g, h.answer (.getSegment id) w' = .ok (some g) → g.audienceSize = size) := by
  cases h with
  | memory =>
    have ends := ends_memory (.setAudienceSize id size) w
    rw [ends.answer]
    refine ⟨_, _, ends, fun ⟨g, live⟩ => ?_, fun done ⟨g, live⟩ w' same => ?_⟩
    · rw [Memory.answer_setAudienceSize, live]
      exact .ok _
    · have read : answer .memory (.getSegment id) w' =
          .ok (some { g with audienceSize := size, updatedAt := w.clock w.readings }) := by
        rw [answer_memory, same, Memory.answer_setAudienceSize]
        change Except.ok ((Memory.revise id _ w.state).segments.get? id) = _
        rw [Memory.get?_revise, live, Option.map_some, if_pos rfl]
      rw [read]
      exact ⟨nofun, fun g same => by cases same; rfl⟩
  | server l =>
    obtain ⟨o, s', settles, fault, sized⟩ := setAudienceSize_any l id size w.state
    obtain ⟨readings, ends⟩ := ends_server (c := .setAudienceSize id size) (settles.run w rfl)
    rw [ends.answer]
    refine ⟨s', readings, ends, fun there => fault there.2, fun done there w' same => ?_⟩
    obtain ⟨held, kept⟩ := sized done
    obtain ⟨o', found, -, known, shown⟩ := getSegment_any l id s'
    have read : answer (.server l) (.getSegment id) w' = o' := answer_server (c := .getSegment id) (same ▸ found)
    rw [read]
    exact ⟨known (kept there.1), fun g same => (shown g same).2 size held⟩

end Store.Host

end CustomerSegments
