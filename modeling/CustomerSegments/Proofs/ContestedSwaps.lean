import CustomerSegments.Proofs.CommandEffects
import CustomerSegments.Proofs.RecordLoading
import CustomerSegments.Proofs.RereadRecords

namespace CustomerSegments.Redis

open Server

/-- What happens at a server while a task runs. -/
inductive Event where
  /-- others leave the server in a state -/
  | others (state : Server)
  /-- a command of the task is answered -/
  | answered (c : Command) (reply : c.Reply) (before after : Server)

/-- A command of the task that changes something. -/
def Event.Writes : Event → Prop
  | others _ => False
  | answered _ _ before after => after ≠ before

/-- A server that others use as well, with the number of commands that a task has sent it and with what has happened,
the earliest first. -/
structure Shared where
  server : Server
  sent : Nat
  events : List Event

namespace Shared

variable (others : Nat → List Server)

/-- The server as others leave it before the next command of the task. -/
def next (s : Shared) : Server :=
  (others s.sent).getLastD s.server

/-- The server and its events after the next command of the task. -/
def extend (s : Shared) (c : Command) (reply : c.Reply) (after : Server) : Shared :=
  ⟨after, s.sent + 1, s.events ++ ((others s.sent).map .others ++ [.answered c reply (s.next others) after])⟩

/-- Before each command of the task the others change the server as often as they like. -/
def answer (c : Command) (_ : Instant) (s : Shared) : c.Reply × Shared :=
  let (reply, after) := (s.next others).answer c
  (reply, s.extend others c reply after)

end Shared

variable {others : Nat → List Server} {α β : Type}

/-- Runs an operation over a server that others use as well. -/
def Operation.runShared (others : Nat → List Server) (op : Operation α) (w : World Shared) :
    Except Error α × World Shared :=
  World.run (Shared.answer others) op.run w

/-- The world after the next command of the task. -/
def Shared.onward (others : Nat → List Server) (w : World Shared) (c : Command) (reply : c.Reply) (after : Server) :
    World Shared :=
  { w with state := w.state.extend others c reply after, readings := w.readings + 1 }

/-- A command that is not refused goes on with its result. -/
theorem runShared_send_bind {c : Command} {next : c.Result → Operation β} {w : World Shared} {r : c.Result} {after : Server}
    (executed : (w.state.next others).execute c = .ok (r, after)) :
    Operation.runShared others (send c >>= next) w =
      Operation.runShared others (next r) (Shared.onward others w c (.ok r) after) := by
  have answered : Shared.answer others c (w.clock w.readings) w.state =
      (.ok r, w.state.extend others c (.ok r) after) := by
    rw [Shared.answer, Server.answer, executed]
  rw [Operation.runShared, ExceptT.run_bind, World.run_bind, send, ExceptT.run_mk, World.run_bind, World.run_backend,
    answered]
  rfl

/-- There is no record of a customer, or a customer can be read of it whose numbers are read back. -/
def Legible (l : Layout) (customer : Uuid) (s : Server) : Prop :=
  s.get? (l.customerKey customer.text) = none ∨
    ∃ text c, s.get? (l.customerKey customer.text) = some (.string text) ∧ Customer.decoder.decodeText text = .ok c ∧
      c.Faithful

variable {l : Layout} {now : Instant} {segment customer : Uuid}

theorem Shared.legible_next {s : Shared} (legible : Legible l customer s.server)
    (legibly : ∀ k, ∀ s ∈ others k, Legible l customer s) : Legible l customer (s.next others) := by
  rw [next, List.getLastD_eq_getLast?]
  cases last : (others s.sent).getLast? with
  | none => exact legible
  | some state => exact legibly _ state (List.mem_of_getLast? last)

/-- There is no record of a customer, or the customer in it does not hold the segment. -/
def Free (l : Layout) (segment customer : Uuid) (s : Server) : Prop :=
  s.get? (l.customerKey customer.text) = none ∨
    ∃ text c, s.get? (l.customerKey customer.text) = some (.string text) ∧ Customer.decoder.decodeText text = .ok c ∧
      segment ∉ c.segments

/-- The record of a customer who holds the segment is replaced by the one of the same customer without the segment, and
nothing else changes. -/
def Strips (l : Layout) (now : Instant) (segment customer : Uuid) (s s' : Server) : Prop :=
  ∃ text text' c, s.get? (l.customerKey customer.text) = some (.string text) ∧
    Customer.decoder.decodeText text = .ok c ∧ segment ∈ c.segments ∧
      s' = s.insert (l.customerKey customer.text) (.string text') ∧
        Customer.decoder.decodeText text' =
          .ok { c with profile := { c.profile with segments := c.segments.erase segment }, updatedAt := now }

/-- The look at a record with what happens before it. -/
def look (l : Layout) (customer : Uuid) (earlier : List Server) (found : Option String) (s : Server) : List Event :=
  earlier.map .others ++ [.answered (.get (l.customerKey customer.text)) (.ok found) s s]

/-- The attempt to swap a record with what happens before it. -/
def swap (l : Layout) (customer : Uuid) (between : List Server) (expected replacement : String) (swapped : Bool)
    (s s' : Server) : List Event :=
  between.map .others ++
    [.answered (.compareAndSet (l.customerKey customer.text) expected replacement) (.ok swapped) s s']

/-- A round in which others change the record between the look at it and the swap, which is not made. -/
def LostRound (l : Layout) (customer : Uuid) (round : List Event) : Prop :=
  ∃ earlier between s s' text replacement,
    round = look l customer earlier (some text) s ++ swap l customer between text replacement false s' s' ∧
      s.get? (l.customerKey customer.text) = some (.string text) ∧
        s'.get? (l.customerKey customer.text) ≠ s.get? (l.customerKey customer.text)

/-- What happens in so many rounds, and the outcome. -/
inductive Stripping (l : Layout) (now : Instant) (segment customer : Uuid) :
    Nat → List Event → Except Error Bool → Prop
  | exhausted : Stripping l now segment customer 0 [] (.error (.store (.contended customer segment)))
  | free {rounds : Nat} (earlier : List Server) (found : Option String) {s : Server} (free : Free l segment customer s) :
      Stripping l now segment customer (rounds + 1) (look l customer earlier found s) (.ok false)
  | swapped {rounds : Nat} (earlier between : List Server) (text replacement : String) (s : Server) {s' s'' : Server}
      (strips : Strips l now segment customer s' s'') :
      Stripping l now segment customer (rounds + 1)
        (look l customer earlier (some text) s ++ swap l customer between text replacement true s' s'') (.ok true)
  | lost {rounds : Nat} {round events : List Event} {outcome : Except Error Bool} (lost : LostRound l customer round)
      (later : Stripping l now segment customer rounds events outcome) :
      Stripping l now segment customer (rounds + 1) (round ++ events) outcome

/-- A swap is made if the record is the expected one, and changes nothing otherwise. -/
theorem execute_swap {s : Server} (legible : Legible l customer s) (text replacement : String) :
    s.get? (l.customerKey customer.text) = some (.string text) ∧
        s.execute (.compareAndSet (l.customerKey customer.text) text replacement) =
          .ok (true, s.insert (l.customerKey customer.text) (.string replacement)) ∨
      s.get? (l.customerKey customer.text) ≠ some (.string text) ∧
        s.execute (.compareAndSet (l.customerKey customer.text) text replacement) = .ok (false, s) := by
  obtain ⟨found, read⟩ : ∃ found, s.string? (l.customerKey customer.text) = .ok found := by
    rcases legible with absent | ⟨text, _, stored, _⟩
    · exact ⟨none, string?_eq_ok_iff.2 absent⟩
    · exact ⟨some text, string?_eq_ok_iff.2 stored⟩
  by_cases same : found = some text
  · refine .inl ⟨string?_eq_ok_iff.1 (same ▸ read), execute_compareAndSet.2 ⟨found, read, ?_, ?_⟩⟩
    · exact (decide_eq_true same).symm
    · rw [if_pos same]
  · refine .inr ⟨fun there => same ?_, execute_compareAndSet.2 ⟨found, read, ?_, ?_⟩⟩
    · exact Except.ok.inj (read.symm.trans (string?_eq_ok_iff.2 there))
    · exact (decide_eq_false same).symm
    · rw [if_neg same]

/-- A customer without a segment is read of what is stored for it. -/
theorem decodeText_strip {c : Customer} {text : String} (decoded : Customer.decoder.decodeText text = .ok c)
    (faithful : c.Faithful) (member : segment ∈ c.segments) (now : Instant) :
    Customer.decoder.decodeText (c.strip segment now).text =
      .ok { c with profile := { c.profile with segments := c.segments.erase segment }, updatedAt := now } := by
  have storable := Customer.storable_of_decodeText decoded faithful
  rw [Customer.decodeText_text (Customer.storable_strip storable segment now), Customer.strip, if_pos member]
  rfl

/-- A round without a record is the last one. -/
theorem runShared_missing {rounds : Nat} {w : World Shared}
    (absent : (w.state.next others).get? (l.customerKey customer.text) = none) :
    (l.stripSegment now segment customer (rounds + 1)).runShared others w =
      (.ok false, Shared.onward others w (.get (l.customerKey customer.text)) (.ok none) (w.state.next others)) := by
  have executed : (w.state.next others).execute (.get (l.customerKey customer.text)) = .ok (none, w.state.next others) :=
    execute_get.2 ⟨string?_eq_ok_iff.2 absent, rfl⟩
  rw [Layout.stripSegment, runShared_send_bind executed]
  rfl

/-- A round goes on with the customer that is read of the record. -/
theorem runShared_found {rounds : Nat} {w : World Shared} {text : String} {c : Customer}
    (stored : (w.state.next others).get? (l.customerKey customer.text) = some (.string text))
    (decoded : Customer.decoder.decodeText text = .ok c) :
    (l.stripSegment now segment customer (rounds + 1)).runShared others w =
      Operation.runShared others
        (if segment ∈ c.segments then
          send (.compareAndSet (l.customerKey customer.text) text (c.strip segment now).text) >>= fun swapped =>
            if swapped then pure true else l.stripSegment now segment customer rounds
        else pure false)
        (Shared.onward others w (.get (l.customerKey customer.text)) (.ok (some text)) (w.state.next others)) := by
  have executed : (w.state.next others).execute (.get (l.customerKey customer.text)) =
      .ok (some text, w.state.next others) := execute_get.2 ⟨string?_eq_ok_iff.2 stored, rfl⟩
  rw [Layout.stripSegment, runShared_send_bind executed]
  dsimp only
  rw [decode_of_ok decoded]
  rfl

/-- A round with a swap is the last one if the record is still the one that was looked at. -/
theorem runShared_swap {rounds : Nat} {w : World Shared} {s : Server} {text text' : String} {c : Customer}
    (stored : (w.state.next others).get? (l.customerKey customer.text) = some (.string text))
    (decoded : Customer.decoder.decodeText text = .ok c) (member : segment ∈ c.segments)
    (between : (others (w.state.sent + 1)).getLastD (w.state.next others) = s)
    (stored' : s.get? (l.customerKey customer.text) = some (.string text')) :
    ∃ w' : World Shared, w'.state.sent = w.state.sent + 2 ∧ (text' ≠ text → w'.state.server = s) ∧
      (l.stripSegment now segment customer (rounds + 1)).runShared others w =
        if text' = text then (.ok true, w') else (l.stripSegment now segment customer rounds).runShared others w' := by
  let looked := Shared.onward others w (.get (l.customerKey customer.text)) (.ok (some text)) (w.state.next others)
  let attempt := Command.compareAndSet (l.customerKey customer.text) text (c.strip segment now).text
  obtain ⟨after, kept, swapped⟩ : ∃ after, (text' ≠ text → after = s) ∧
      (looked.state.next others).execute attempt = .ok (decide (text' = text), after) := by
    have here : looked.state.next others = s := between
    rw [here]
    have compared : decide (text' = text) = decide (some text' = some text) := by
      simp only [Option.some.injEq]
    refine ⟨_, fun other => ?_, execute_compareAndSet.2 ⟨some text', string?_eq_ok_iff.2 stored', compared, rfl⟩⟩
    exact if_neg (mt Option.some.inj other)
  refine ⟨Shared.onward others looked attempt (.ok (decide (text' = text))) after, rfl, kept, ?_⟩
  rw [runShared_found stored decoded, if_pos member, runShared_send_bind swapped]
  by_cases same : text' = text
  · rw [if_pos same, if_pos (decide_eq_true same)]
    rfl
  · rw [if_neg same, if_neg (mt of_decide_eq_true same)]

/-- The rounds take one of these courses, and what happens in them is noted. -/
theorem stripSegment_stripping (now : Instant) (segment : Uuid) (legibly : ∀ k, ∀ s ∈ others k, Legible l customer s)
    (rounds : Nat) {w : World Shared} (legible : Legible l customer w.state.server) :
    ∃ events, Stripping l now segment customer rounds events
        ((l.stripSegment now segment customer rounds).runShared others w).1 ∧
      ((l.stripSegment now segment customer rounds).runShared others w).2.state.events = w.state.events ++ events := by
  induction rounds generalizing w with
  | zero => exact ⟨[], .exhausted, (List.append_nil _).symm⟩
  | succ rounds ih =>
    have legible := Shared.legible_next legible legibly
    rcases id legible with absent | ⟨text, c, stored, decoded, faithful⟩
    · rw [runShared_missing absent]
      exact ⟨_, .free (others w.state.sent) none (.inl absent), rfl⟩
    · rw [runShared_found stored decoded]
      by_cases member : segment ∈ c.segments
      · rw [if_pos member]
        have legible := Shared.legible_next
          (s := (Shared.onward others w (.get (l.customerKey customer.text)) (.ok (some text)) (w.state.next others)).state)
          legible legibly
        rcases execute_swap legible text (c.strip segment now).text with ⟨there, executed⟩ | ⟨changed, executed⟩
        · rw [runShared_send_bind executed]
          have strips : Strips l now segment customer _ _ :=
            ⟨text, _, c, there, decoded, member, rfl, decodeText_strip decoded faithful member now⟩
          refine ⟨_, .swapped (others w.state.sent) (others (w.state.sent + 1)) text
            (c.strip segment now).text (w.state.next others) strips, ?_⟩
          exact List.append_assoc _ _ _
        · rw [runShared_send_bind executed]
          obtain ⟨events, stripping, same⟩ := @ih (Shared.onward others _ _ _ _) legible
          have lost : LostRound l customer (look l customer (others w.state.sent) (some text) (w.state.next others) ++
              swap l customer (others (w.state.sent + 1)) text (c.strip segment now).text false _ _) :=
            ⟨_, _, _, _, _, _, rfl, stored, stored ▸ changed⟩
          refine ⟨_, .lost lost stripping, same.trans ?_⟩
          simp only [Shared.onward, Shared.extend, look, swap, List.append_assoc]
          rfl
      · rw [if_neg member]
        exact ⟨_, .free (others w.state.sent) (some text) (.inr ⟨text, c, stored, decoded, member⟩), rfl⟩

/-- The segment was there before, and is not there any more. -/
theorem Strips.changes {s s' : Server} (strips : Strips l now segment customer s s') : s' ≠ s := by
  obtain ⟨text, text', c, stored, decoded, member, rfl, stripped⟩ := strips
  intro same
  rw [← same, Table.get?_insert, if_pos rfl] at stored
  cases stored
  rw [decoded] at stripped
  have segments : c.segments = c.segments.erase segment := congrArg Customer.segments (Except.ok.inj stripped)
  rw [segments] at member
  exact (IdSet.mem_erase.1 member).2 rfl

theorem not_writes_others {states : List Server} {e : Event} (mem : e ∈ states.map .others) : ¬ e.Writes := by
  obtain ⟨state, _, rfl⟩ := List.mem_map.1 mem
  exact id

theorem not_writes_look {earlier : List Server} {found : Option String} {s : Server} {e : Event}
    (mem : e ∈ look l customer earlier found s) : ¬ e.Writes := by
  rcases List.mem_append.1 mem with other | own
  · exact not_writes_others other
  · cases List.mem_singleton.1 own
    exact fun changed => changed rfl

theorem LostRound.not_writes {round : List Event} {e : Event} (lost : LostRound l customer round) (mem : e ∈ round) :
    ¬ e.Writes := by
  obtain ⟨earlier, between, s, s', text, replacement, rfl, _⟩ := lost
  rcases List.mem_append.1 mem with looked | swapped
  · exact not_writes_look looked
  · rcases List.mem_append.1 swapped with other | own
    · exact not_writes_others other
    · cases List.mem_singleton.1 own
      exact fun changed => changed rfl

namespace Stripping

variable {rounds : Nat} {events : List Event} {outcome : Except Error Bool}

/-- Either the last command writes and no other one does, and the outcome says so, or none does. -/
theorem written (stripping : Stripping l now segment customer rounds events outcome) :
    (outcome = .ok true ∧ ∃ front c reply before after, events = front ++ [.answered c reply before after] ∧
      (∀ e ∈ front, ¬ e.Writes) ∧ Strips l now segment customer before after) ∨
    (outcome ≠ .ok true ∧ ∀ e ∈ events, ¬ e.Writes) := by
  induction stripping with
  | exhausted => exact .inr ⟨nofun, fun _ mem => nomatch mem⟩
  | free earlier found free => exact .inr ⟨nofun, fun _ => not_writes_look⟩
  | swapped earlier between text replacement s strips =>
    refine .inl ⟨rfl, look l customer earlier (some text) s ++ between.map .others,
      .compareAndSet (l.customerKey customer.text) text replacement, .ok true, _, _, ?_, ?_, strips⟩
    · rw [swap, List.append_assoc]
    · intro e mem
      rcases List.mem_append.1 mem with looked | other
      · exact not_writes_look looked
      · exact not_writes_others other
  | lost lost _ ih =>
    rcases ih with ⟨done, front, c, reply, before, after, rfl, silent, strips⟩ | ⟨undone, silent⟩
    · refine .inl ⟨done, _ ++ front, c, reply, before, after, (List.append_assoc _ _ _).symm, fun e mem => ?_, strips⟩
      exact (List.mem_append.1 mem).elim lost.not_writes (silent e)
    · exact .inr ⟨undone, fun e mem => (List.mem_append.1 mem).elim lost.not_writes (silent e)⟩

/-- If nothing was taken, the last look found nothing to take. -/
theorem freed (stripping : Stripping l now segment customer rounds events (.ok false)) :
    ∃ c reply before after, .answered c reply before after ∈ events ∧ Free l segment customer before := by
  generalize same : Except.ok false = outcome at stripping
  induction stripping with
  | exhausted | swapped => cases same
  | free earlier found free => exact ⟨_, _, _, _, List.mem_append_right _ List.mem_cons_self, free⟩
  | lost _ _ ih =>
    obtain ⟨c, reply, before, after, mem, free⟩ := ih same
    exact ⟨c, reply, before, after, List.mem_append_right _ mem, free⟩

/-- An error means that every round was lost. -/
theorem contended {e : Error} (stripping : Stripping l now segment customer rounds events (.error e)) :
    e = .store (.contended customer segment) ∧
      ∃ lost : List (List Event), lost.length = rounds ∧ events = lost.flatten ∧ ∀ round ∈ lost, LostRound l customer round := by
  generalize same : Except.error e = outcome at stripping
  induction stripping with
  | exhausted => exact ⟨Except.error.inj same, [], rfl, rfl, fun _ mem => nomatch mem⟩
  | free | swapped => cases same
  | lost lost _ ih =>
    obtain ⟨contended, others, long, rfl, all⟩ := ih same
    refine ⟨contended, _ :: others, congrArg (· + 1) long, rfl, fun round mem => ?_⟩
    rcases List.mem_cons.1 mem with rfl | mem
    · exact lost
    · exact all round mem

end Stripping

/-- However others write and remove the record of a customer between the commands by which a segment is taken from it, as
long as a customer can be read of it whose numbers are read back as they are written: at most one of the commands
changes something, and that one replaces the record that is there at that instant by the one of the same customer
without the segment. The answer is yes if and only if there was such a write; it is no only if at some instant there
was no record or the segment was not in it; and it is an error only if in each of eight rounds others changed the
record between the look at it and the swap, and then nothing was written. -/
theorem stripSegment_never_overwrites {w : World Shared} (now : Instant) (segment : Uuid) (unused : w.state.events = [])
    (legible : Legible l customer w.state.server) (legibly : ∀ k, ∀ s ∈ others k, Legible l customer s) :
    let run := (l.stripSegment now segment customer Layout.swapRounds).runShared others w
    let events := run.2.state.events
    events.Pairwise (fun e e' => ¬ (e.Writes ∧ e'.Writes)) ∧
    (∀ c reply before after, .answered c reply before after ∈ events → after ≠ before →
      Strips l now segment customer before after) ∧
    (run.1 = .ok true ↔ ∃ e ∈ events, e.Writes) ∧
    (run.1 = .ok false →
      ∃ c reply before after, .answered c reply before after ∈ events ∧ Free l segment customer before) ∧
    ∀ e, run.1 = .error e → e = .store (.contended customer segment) ∧ (∀ e ∈ events, ¬ e.Writes) ∧
      ∃ rounds : List (List Event), rounds.length = 8 ∧ events = rounds.flatten ∧
        ∀ round ∈ rounds, LostRound l customer round := by
  intro run events
  obtain ⟨events', stripping, same⟩ := stripSegment_stripping now segment legibly Layout.swapRounds legible
  rw [unused, List.nil_append] at same
  rw [← same] at stripping
  have freed (no : run.1 = .ok false) := Stripping.freed (no ▸ stripping)
  have contended (e : Error) (failed : run.1 = .error e) := Stripping.contended (failed ▸ stripping)
  rcases stripping.written with ⟨yes, front, c, reply, before, after, shape, silent, strips⟩ | ⟨no, silent⟩
  · have shape : events = front ++ [.answered c reply before after] := shape
    have last : ∀ e ∈ events, e.Writes → e = .answered c reply before after := fun e mem writes => by
      rw [shape] at mem
      exact (List.mem_append.1 mem).elim (fun mem => absurd writes (silent e mem)) List.mem_singleton.1
    refine ⟨?_, fun c' reply' before' after' mem changed => ?_, ?_, freed, fun e failed => ?_⟩
    · rw [shape, List.pairwise_append]
      refine ⟨?_, List.pairwise_singleton _ _, fun e mem _ _ both => silent e mem both.1⟩
      exact List.pairwise_of_forall_mem_list fun e mem _ _ both => silent e mem both.1
    · cases last _ mem changed
      exact strips
    · refine iff_of_true yes ⟨.answered c reply before after, ?_, strips.changes⟩
      rw [shape]
      exact List.mem_append_right _ List.mem_cons_self
    · rw [failed] at yes
      cases yes
  · refine ⟨?_, fun c reply before after mem changed => absurd changed (silent _ mem), ?_, freed, fun e failed => ?_⟩
    · exact List.pairwise_of_forall_mem_list fun e mem _ _ both => silent e mem both.1
    · exact iff_of_false no fun ⟨e, mem, writes⟩ => silent e mem writes
    · exact ⟨(contended e failed).1, silent, (contended e failed).2⟩

/-- The record of a customer in a segment. -/
def recordOf (name : String) : String :=
  "\x7b\"id\":\"00000000-0000-0000-0000-000000000001\",\"name\":\"" ++ name ++ "\",\"segments\":[\"00000000-0000-0000-0000-000000000002\"],\"createdAt\":\"1970-01-01T00:00:00Z\",\"updatedAt\":\"1970-01-01T00:00:00Z\"\x7d"

/-- A server with such a record. -/
def recordNamed (name : String) : Server :=
  .insert .empty (Layout.customerKey ⟨"p", 1⟩ (Uuid.counting 1).text) (.string (recordOf name))

theorem eq_ok_of_toOption {ε : Type} {x : Except ε α} {a : α} (same : x.toOption = some a) : x = .ok a := by
  cases x with
  | ok b => exact congrArg Except.ok (Option.some.inj same)
  | error e => cases same

theorem get?_recordNamed (name : String) :
    (recordNamed name).get? (Layout.customerKey ⟨"p", 1⟩ (Uuid.counting 1).text) = some (.string (recordOf name)) := by
  rw [recordNamed, Table.get?_insert, if_pos rfl]

theorem readsBack_zero : (Number.double .zero).ReadsBack := by
  have read : (Json.ofText? (Json.number (.double .zero)).text).toOption = some (.number (.double .zero)) := by
    decide +kernel
  exact eq_ok_of_toOption read

set_option maxRecDepth 2000 in
/-- A customer of the segment who spent nothing and has no attributes is read of such a record. -/
theorem exists_recordOf {name : String} (listed : name ∈ ["Ada", "Bo"]) :
    ∃ c, Customer.decoder.decodeText (recordOf name) = .ok c ∧ .counting 2 ∈ c.segments ∧
      c.profile.totalSpend = .zero ∧ c.profile.attributes = [] := by
  have chars : (recordOf name).toList = _ ++ name.toList ++ _ :=
    String.toList_append.trans (congrArg₂ (· ++ ·)
      (String.toList_append.trans (congrArg (· ++ name.toList) String.toList_ofList)) String.toList_ofList)
  have read : (Customer.decoder.decodeText (recordOf name)).toOption.any (fun c =>
      decide (.counting 2 ∈ c.segments ∧ c.profile.totalSpend = .zero ∧ c.profile.attributes = [])) = true := by
    rw [Json.Decoder.decodeText_of_toList _ chars]
    clear chars
    revert name
    decide +kernel
  cases decoded : Customer.decoder.decodeText (recordOf name) with
  | error problem =>
    rw [decoded] at read
    cases read
  | ok c =>
    rw [decoded] at read
    exact ⟨c, rfl, of_decide_eq_true read⟩

theorem legible_recordNamed {name : String} (listed : name ∈ ["Ada", "Bo"]) :
    Legible ⟨"p", 1⟩ (.counting 1) (recordNamed name) := by
  obtain ⟨c, decoded, _, spent, free⟩ := exists_recordOf listed
  refine .inr ⟨recordOf name, c, get?_recordNamed name, decoded, ?_, ?_⟩
  · rw [spent]
    exact readsBack_zero
  · rw [free]
    exact trivial

/-- The record is edited between the first look at it and the swap. -/
def editedOnce : Nat → List Server
  | 1 => [recordNamed "Bo"]
  | _ => []

/-- The segment is taken from the customer meanwhile. -/
def stripEdited : Except Error Bool × World Shared :=
  Operation.runShared editedOnce (Layout.stripSegment ⟨"p", 1⟩ .epoch (.counting 2) (.counting 1) Layout.swapRounds)
    (.start ⟨recordNamed "Ada", 0, []⟩ (fun _ => .epoch) Uuid.counting)

/-- The first round is lost to the edit, and the second one takes the segment from the edited customer. -/
theorem stripEdited_ends : stripEdited.1 = .ok true ∧ stripEdited.2.state.sent = 4 := by
  obtain ⟨ada, decoded, member, _⟩ := exists_recordOf (List.mem_cons_self : "Ada" ∈ ["Ada", "Bo"])
  obtain ⟨bo, decoded', member', _⟩ := exists_recordOf (by decide : "Bo" ∈ ["Ada", "Bo"])
  have edited : recordOf "Bo" ≠ recordOf "Ada" := by
    intro same
    have names : "Bo" = "Ada" := (String.append_right_inj _).1 ((String.append_left_inj _).1 same)
    exact absurd names (by decide)
  obtain ⟨w, sent, server, lost⟩ := @runShared_swap editedOnce ⟨"p", 1⟩ .epoch (.counting 2)
    (.counting 1) 7
    (.start ⟨recordNamed "Ada", 0, []⟩ (fun _ => .epoch) Uuid.counting) (recordNamed "Bo") _ _ ada
    (get?_recordNamed "Ada") decoded member rfl (get?_recordNamed "Bo")
  have unchanged : w.state.next editedOnce = recordNamed "Bo" := by
    rw [Shared.next, sent]
    exact server edited
  obtain ⟨w', sent', _, won⟩ := @runShared_swap editedOnce ⟨"p", 1⟩ .epoch (.counting 2) (.counting 1) 6 w
    (recordNamed "Bo") _ _ bo (unchanged ▸ get?_recordNamed "Bo") decoded' member'
    (by rw [unchanged, sent]; rfl) (get?_recordNamed "Bo")
  rw [if_neg edited, won, if_pos rfl] at lost
  rw [stripEdited, Layout.swapRounds, lost]
  exact ⟨rfl, sent'.trans (congrArg (· + 2) sent)⟩

theorem stripSegment_never_overwrites_edit :
    stripEdited.1.toOption = some true ∧ stripEdited.2.state.sent = 4 ∧
      ∃ c reply before after, .answered c reply before after ∈ stripEdited.2.state.events ∧
        Strips ⟨"p", 1⟩ .epoch (.counting 2) (.counting 1) before after := by
  obtain ⟨yes, sent⟩ := stripEdited_ends
  unfold stripEdited at yes sent ⊢
  have legibly : ∀ k, ∀ s ∈ editedOnce k, Legible ⟨"p", 1⟩ (.counting 1) s := by
    intro k s mem
    unfold editedOnce at mem
    split at mem
    · rw [List.mem_singleton.1 mem]
      exact legible_recordNamed (by decide)
    · cases mem
  obtain ⟨_, strips, wrote, _⟩ := @stripSegment_never_overwrites editedOnce ⟨"p", 1⟩ (.counting 1)
    (.start ⟨recordNamed "Ada", 0, []⟩ (fun _ => .epoch) Uuid.counting) .epoch (.counting 2) rfl
    (legible_recordNamed (by decide)) legibly
  obtain ⟨e, mem, writes⟩ := wrote.1 yes
  cases e with
  | others state => cases writes
  | answered c reply before after =>
    have done : stripEdited.1.toOption = some true := congrArg Except.toOption yes
    exact ⟨done, sent, c, reply, before, after, mem, strips c reply before after mem writes⟩

end CustomerSegments.Redis
