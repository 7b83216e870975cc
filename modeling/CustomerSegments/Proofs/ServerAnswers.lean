import CustomerSegments.Proofs.CommandFootprint
import CustomerSegments.Proofs.FaultlessRuns
import CustomerSegments.Proofs.RecordLoading
import CustomerSegments.Proofs.RedisSegments
import CustomerSegments.Proofs.SharedCounters

namespace CustomerSegments.Redis

open Server (Keeps)

variable {α β : Type} {l : Layout} {s s' : Server} {id : Uuid}

namespace Settles

variable {key : String} {refusal : Refusal}

/-- A look at a string, a set or a hash is refused if the key holds something of another kind. -/
theorem get_refused (stored : s.string? key = .error refusal) :
    Settles (Redis.send (.get key)) s (.error (.store (.refused refusal))) s :=
  .send_refused (by rw [Server.execute, stored]; rfl)

theorem smembers_refused (stored : s.set? key = .error refusal) :
    Settles (Redis.send (.smembers key)) s (.error (.store (.refused refusal))) s :=
  .send_refused (by rw [Server.execute, stored]; rfl)

theorem hget_refused (stored : s.hash? key = .error refusal) (field : String) :
    Settles (Redis.send (.hget key field)) s (.error (.store (.refused refusal))) s :=
  .send_refused (by rw [Server.execute, stored]; rfl)

theorem hsetnx_refused (stored : s.hash? key = .error refusal) (field value : String) :
    Settles (Redis.send (.hsetnx key field value)) s (.error (.store (.refused refusal))) s :=
  .send_refused (by rw [Server.execute, stored]; rfl)

end Settles

/-- What is listed of the customers. The size of a page plays no part. -/
def Layout.listed (l : Layout) (s : Server) : Except Error (List Customer) :=
  match s.set? l.customersKey with
  | .error refusal => .error (.store (.refused refusal))
  | .ok ids =>
    ((textsOf s l.customerKey ids.keys).mapM (decode Customer.decoder)).map (Store.newestFirst Customer.createdAt)

theorem listCustomers_any (l : Layout) (s : Server) : Settles l.listCustomers s (l.listed s) s := by
  rw [Layout.listed]
  cases stored : s.set? l.customersKey with
  | error refusal =>
    exact (Settles.smembers_refused stored).bind_error.bind_error
  | ok ids =>
    have loaded := loadPages_any s Customer.decoder l.customerKey (pages l.pageSize ids.keys)
    rw [flatten_pages] at loaded
    have loaded : Settles (loadAll l Customer.decoder l.customersKey l.customerKey) s _ s :=
      (Settles.smembers stored).bind loaded
    dsimp only
    cases read : (textsOf s l.customerKey ids.keys).mapM (decode Customer.decoder) with
    | error e =>
      rw [read] at loaded
      exact loaded.bind_error
    | ok records =>
      rw [read] at loaded
      exact loaded.bind (.pure _)

theorem countMatching_any (l : Layout) (p : Predicate) (s : Server) :
    Settles (l.operation (.countMatching p)) s ((l.listed s).map fun cs => cs.countP fun c => p.holds c.toJson) s := by
  have loaded := listCustomers_any l s
  cases read : l.listed s with
  | error e =>
    rw [read] at loaded
    exact loaded.bind_error
  | ok cs =>
    rw [read] at loaded
    exact loaded.bind (.pure _)

theorem Touches.ofCustomers {call : Store.Call} {slot : Slot} (touches : Touches call slot)
    (apart : call.method ∉ Memory.customerWrites) : slot.ofCustomers = false := by
  cases call with
  | insertCustomer c | updateCustomer c | deleteCustomer id | removeSegmentFromAll segment =>
    exact absurd (by simp [Store.Call.method, Memory.customerWrites]) apart
  | getCustomer id | listCustomers | countMatching p | getSegment id | findSegmentByName name | listSegments | ping =>
    exact touches.elim
  | insertSegment g | deleteSegment id => rcases touches with rfl | rfl | rfl | rfl <;> rfl
  | updateSegment g => rcases touches with rfl | rfl <;> rfl
  | setAudienceSize id size | incrementAudienceSize id delta =>
    obtain rfl : slot = .audience := touches
    rfl

/-- A record is stored for a segment, whether it can be read or not. -/
def Server.HasRecord (l : Layout) (s : Server) (id : Uuid) : Prop :=
  ∃ text, s.string? (l.key (.segment id)) = .ok (some text)

/-- A name belongs to no segment but one, which may take it. -/
def Server.Concedes (l : Layout) (s : Server) (name : String) (id : Uuid) : Prop :=
  ∀ names owner, s.hash? (l.key .names) = .ok names → names.get? name = some owner → owner = id.text

theorem decode_faultOnly (d : Json.Decoder α) (text : String) : FaultOnly (decode d text) := by
  rw [decode]
  split
  · exact .ok _
  · exact .fault rfl

theorem size?_faultOnly (text : String) : FaultOnly (size? text) := by
  rw [size?]
  split
  · exact .ok _
  · exact .fault rfl

theorem segmentRecord_any (l : Layout) (id : Uuid) (s : Server) :
    ∃ o, Settles (l.segmentRecord id) s o s ∧ FaultOnly o ∧ (s.HasRecord l id → o ≠ .ok none) ∧
      ∀ g, o = .ok (some g) → s.HasRecord l id := by
  cases stored : s.string? (l.key (.segment id)) with
  | error refusal => exact ⟨_, (Settles.get_refused stored).bind_error, .fault rfl, fun _ => nofun, fun _ => nofun⟩
  | ok found =>
    cases found with
    | none =>
      refine ⟨_, (Settles.get stored).bind (.pure none), .ok _, fun recorded => ?_, fun _ => nofun⟩
      obtain ⟨text, present⟩ := recorded
      cases stored.symm.trans present
    | some text =>
      have recorded : s.HasRecord l id := ⟨text, stored⟩
      cases read : decode Segment.decoder text with
      | error e =>
        exact ⟨_, (Settles.get stored).bind (Settles.bind_error (.settled read)),
          .fault (decode_faultOnly _ _ e read), fun _ => nofun, fun _ => nofun⟩
      | ok g =>
        exact ⟨_, (Settles.get stored).bind (Settles.map some (.settled read)), .ok _, fun _ => nofun, fun _ _ => recorded⟩

/-- A look at a size, whatever is stored for it: a number that is held is shown. -/
theorem audienceSize_any (l : Layout) (id : Uuid) (s : Server) :
    ∃ o, Settles (l.audienceSize id) s o s ∧ FaultOnly o ∧
      ∀ n, s.audienceSize? l id = some n → o = .ok (Int64.ofInt n) := by
  cases held : s.audienceSize? l id with
  | some n =>
    refine ⟨_, Server.settles_audienceSize held, .ok _, fun m same => ?_⟩
    rw [Option.some.inj same]
  | none =>
    suffices settles : ∃ o, Settles (l.audienceSize id) s o s ∧ FaultOnly o by
      obtain ⟨o, settles, fault⟩ := settles
      exact ⟨o, settles, fault, nofun⟩
    cases stored : s.hash? (l.key .audience) with
    | error refusal =>
      exact ⟨_, (Settles.hget_refused stored id.text).bind_error, .fault rfl⟩
    | ok sizes =>
      cases found : sizes.get? id.text with
      | none =>
        refine ⟨.ok 0, (Settles.hget stored id.text).bind ?_, .ok _⟩
        rw [found]
        exact .pure 0
      | some text =>
        refine ⟨size? text, (Settles.hget stored id.text).bind ?_, size?_faultOnly text⟩
        rw [found]
        exact .settled rfl

/-- A look at a segment, whatever is stored for it: it shows the size that is held. -/
theorem getSegment_any (l : Layout) (id : Uuid) (s : Server) :
    ∃ o, Settles (l.getSegment id) s o s ∧ FaultOnly o ∧ (s.HasRecord l id → o ≠ .ok none) ∧
      ∀ g, o = .ok (some g) → s.HasRecord l id ∧
        ∀ size : Int64, s.audienceSize? l id = some size.toInt → g.audienceSize = size := by
  obtain ⟨o, found, fault, known, there⟩ := segmentRecord_any l id s
  cases o with
  | error e => exact ⟨_, found.bind_error, .fault (fault e rfl), fun _ => nofun, fun _ => nofun⟩
  | ok record =>
    cases record with
    | none => exact ⟨_, found.bind (.pure none), .ok _, fun recorded => absurd rfl (known recorded), fun _ => nofun⟩
    | some r =>
      obtain ⟨o, sized, fault, shown⟩ := audienceSize_any l id s
      cases o with
      | error e => exact ⟨_, found.bind sized.bind_error, .fault (fault e rfl), fun _ => nofun, fun _ => nofun⟩
      | ok read =>
        refine ⟨_, found.bind (sized.bind (.pure _)), .ok _, fun _ => nofun, fun g same =>
          ⟨there r rfl, fun size held => ?_⟩⟩
        cases same
        rw [Except.ok.inj (shown _ held), Int64.ofInt_toInt]

theorem findSegmentByName_any (l : Layout) (name : String) (s : Server) :
    ∃ o, Settles (l.findSegmentByName name) s o s ∧ FaultOnly o := by
  cases stored : s.hash? (l.key .names) with
  | error refusal =>
    exact ⟨_, (Settles.hget_refused stored name).bind_error, .fault rfl⟩
  | ok names =>
    cases owner : (names.get? name).bind Uuid.ofText? with
    | none =>
      refine ⟨.ok none, (Settles.hget stored name).bind ?_, .ok _⟩
      rw [owner]
      exact .pure none
    | some id =>
      obtain ⟨o, found, fault, -, -⟩ := getSegment_any l id s
      refine ⟨o, (Settles.hget stored name).bind ?_, fault⟩
      rw [owner]
      exact found

/-- A segment can be renamed to a name that no other one has, unless there is a fault. -/
theorem rename_any (l : Layout) (id : Uuid) (old new : String) (s : Server) :
    ∃ o s', Settles (l.rename id old new) s o s' ∧ (s.Concedes l new id → FaultOnly o) := by
  cases stored : s.hash? (l.key .names) with
  | error refusal => exact ⟨_, _, (Settles.hsetnx_refused stored _ _).bind_error, fun _ => .fault rfl⟩
  | ok names =>
    cases owner : names.get? new with
    | none =>
      obtain ⟨s₁, claim, stored₁, -⟩ := Settles.hsetnx_of_free l .names stored owner id.text
      obtain ⟨s₂, giveUp, -, -⟩ := Settles.hdel l .names stored₁ old
      exact ⟨_, s₂, claim.bind giveUp, fun _ => .ok _⟩
    | some taken =>
      have claim : Settles (Redis.send (.hsetnx (l.key .names) new id.text)) s (.ok false) s :=
        .hsetnx_of_taken stored owner
      have look := Settles.hget stored new
      rw [owner] at look
      by_cases own : some taken = some id.text
      · obtain ⟨s₁, giveUp, -, -⟩ := Settles.hdel l .names stored old
        refine ⟨.ok (), s₁, claim.bind (look.bind ?_), fun _ => .ok _⟩
        simp only [own, ne_eq, not_true_eq_false, if_false]
        exact giveUp
      · refine ⟨.error (.duplicateName new), s, claim.bind (look.bind ?_), fun concedes => ?_⟩
        · simp only [own, ne_eq, not_false_eq_true, if_true]
          exact Settles.bind_error (.throw _)
        · exact absurd (congrArg some (concedes names taken stored owner)) own

/-- An update, whatever is stored before: if there is a record, and no other segment has the name, only a fault
refuses it, and one that is not refused leaves the record. -/
theorem updateSegment_any (l : Layout) (g : Segment) (s : Server) :
    ∃ o s', Settles (l.updateSegment g) s o s' ∧ (s.HasRecord l g.id → s.Concedes l g.name g.id → FaultOnly o) ∧
      (o = .ok () → s'.string? (l.key (.segment g.id)) = .ok (some g.text)) := by
  obtain ⟨o, found, fault, known, -⟩ := segmentRecord_any l g.id s
  cases o with
  | error e => exact ⟨_, _, found.bind_error, fun _ _ => .fault (fault e rfl), nofun⟩
  | ok record =>
    cases record with
    | none => exact ⟨_, _, found.bind (.throw _), fun recorded => absurd rfl (known recorded), nofun⟩
    | some old =>
      by_cases kept : old.name = g.name
      · obtain ⟨s₁, put, record, -⟩ := Settles.set l (.segment g.id) s g.text
        refine ⟨.ok (), s₁, found.bind ?_, fun _ _ => .ok _, fun _ => record⟩
        simp only [kept, ne_eq, not_true_eq_false, if_false]
        exact put
      · obtain ⟨o, s₁, renamed, fault⟩ := rename_any l g.id old.name g.name s
        cases o with
        | error e =>
          refine ⟨.error e, s₁, found.bind ?_, fun _ concedes => .fault (fault concedes e rfl), nofun⟩
          simp only [kept, ne_eq, not_false_eq_true, if_true]
          exact renamed.bind_error
        | ok done =>
          obtain ⟨s₂, put, record, -⟩ := Settles.set l (.segment g.id) s₁ g.text
          refine ⟨.ok (), s₂, found.bind ?_, fun _ _ => .ok _, fun _ => record⟩
          simp only [kept, ne_eq, not_false_eq_true, if_true]
          exact renamed.bind put

/-- A size is set, whatever is stored before: for an id that is listed only a fault refuses this, and if it is not
refused, the size is held, and the record stays. -/
theorem setAudienceSize_any (l : Layout) (id : Uuid) (size : Int64) (s : Server) :
    ∃ o s', Settles (l.setAudienceSize id size) s o s' ∧ (s.Lists l id → FaultOnly o) ∧
      (o = .ok () → s'.audienceSize? l id = some size.toInt ∧ (s.HasRecord l id → s'.HasRecord l id)) := by
  cases ids : s.set? l.segmentsKey with
  | error refusal =>
    have refused : s.execute (.setIfLive l.segmentsKey l.audienceKey id.text size.toInt) = .error refusal := by
      rw [Server.execute, ids]
      rfl
    exact ⟨_, _, (Settles.send_refused refused).bind_error, fun _ => .fault rfl, fun absurd => by cases absurd⟩
  | ok members =>
    cases live : members.contains id.text with
    | false =>
      refine ⟨_, _, (Settles.setIfLive_of_gone ids live _ _).bind (.throw _), fun lists => ?_,
        fun absurd => by cases absurd⟩
      obtain ⟨members', listed, here⟩ := lists
      cases ids.symm.trans listed
      cases live.symm.trans here
    | true =>
      cases sizes : s.hash? (l.key .audience) with
      | error refusal =>
        have refused : s.execute (.setIfLive l.segmentsKey l.audienceKey id.text size.toInt) = .error refusal := by
          rw [Server.execute, ids]
          dsimp only [Bind.bind, Except.bind]
          rw [live, Server.setField, show s.hash? l.audienceKey = .error refusal from sizes]
          rfl
        exact ⟨_, _, (Settles.send_refused refused).bind_error, fun _ => .fault rfl, fun absurd => by cases absurd⟩
      | ok rows =>
        obtain ⟨s', set, stored, keeps⟩ := Settles.setIfLive l .audience ids live sizes size.toInt
        refine ⟨_, s', set.bind (.pure ()), fun _ => .ok _, fun _ => ⟨?_, ?_⟩⟩
        · have least := size.le_toInt
          have most := size.toInt_lt
          rw [Server.audienceSize?, show s'.hash? l.audienceKey = _ from stored]
          simp only [Table.get?_insert, if_true, String.toList_ofList]
          exact Decimal.int64?_ofInt (by omega) (by omega)
        · rintro ⟨text, record⟩
          refine ⟨text, ?_⟩
          rw [keeps.string? (by simp)]
          exact record

end CustomerSegments.Redis
