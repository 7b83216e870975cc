import CustomerSegments.Proofs.AudienceBalance
import CustomerSegments.Proofs.CommandEffects
import CustomerSegments.Proofs.Footprint
import CustomerSegments.Proofs.SlotCommands

namespace CustomerSegments

/-- By how much the share of a segment in its size differs between two sets of segments of a customer. -/
def IdSet.gain (before after : IdSet) (segment : Uuid) : Int :=
  (if segment ∈ after then 1 else 0) - if segment ∈ before then 1 else 0

namespace Redis

namespace Server

/-- A segment that a server lists. -/
def Lists (l : Layout) (s : Server) (segment : Uuid) : Prop :=
  ∃ ids, s.set? l.segmentsKey = .ok ids ∧ ids.contains segment.text = true

/-- The audience size of a segment, as far as a server holds a number. -/
def audienceSize? (l : Layout) (s : Server) (segment : Uuid) : Option Int :=
  match s.hash? l.audienceKey with
  | .ok sizes =>
    match sizes.get? segment.text with
    | none => some 0
    | some text => Decimal.int64? text.toList
  | .error _ => none

/-- The stored customer of an id, if there is a record that can be read. -/
def customer? (l : Layout) (s : Server) (id : Uuid) : Option Customer :=
  match s.string? (l.customerKey id.text) with
  | .ok (some text) => (Customer.decoder.decodeText text).toOption
  | _ => none

variable {l : Layout} {s s' : Server} {segment : Uuid}

theorem Lists.of_eq (same : s'.get? (l.key .segments) = s.get? (l.key .segments)) (listed : s.Lists l segment) :
    s'.Lists l segment := by
  obtain ⟨ids, known, mem⟩ := listed
  refine ⟨ids, ?_, mem⟩
  rw [set?, show Table.get? s' l.segmentsKey = Table.get? s l.segmentsKey from same]
  exact known

theorem audienceSize?_of_eq (same : s'.get? (l.key .audience) = s.get? (l.key .audience)) :
    s'.audienceSize? l segment = s.audienceSize? l segment := by
  rw [audienceSize?, audienceSize?, hash?, hash?, show Table.get? s' l.audienceKey = Table.get? s l.audienceKey from same]

theorem customer?_of_eq {id : Uuid} (same : s'.get? (l.key (.customer id)) = s.get? (l.key (.customer id))) :
    s'.customer? l id = s.customer? l id := by
  rw [customer?, customer?, string?, string?,
    show Table.get? s' (l.customerKey id.text) = Table.get? s (l.customerKey id.text) from same]

/-- An addition to a size that is held reads the size that readers get. -/
theorem added?_eq_ok {sizes : Table String String} {delta size : Int} (stored : s.hash? l.audienceKey = .ok sizes)
    (added : added? sizes segment.text delta = .ok size) {n : Int} (held : s.audienceSize? l segment = some n) :
    size = n + delta ∧ -9223372036854775808 ≤ size ∧ size ≤ 9223372036854775807 := by
  have checked {old : Int} (added : (if -9223372036854775808 ≤ old + delta ∧ old + delta ≤ 9223372036854775807 then
      .ok (old + delta) else .error .overflow : Except Refusal Int) = .ok size) :
      size = old + delta ∧ -9223372036854775808 ≤ size ∧ size ≤ 9223372036854775807 := by
    split at added
    · next bounds =>
      cases added
      exact ⟨rfl, bounds⟩
    · cases added
  rw [audienceSize?, stored] at held
  rw [added?] at added
  cases found : sizes.get? segment.text with
  | none =>
    simp only [found] at added held
    cases held
    exact checked added
  | some text =>
    simp only [found, counter?] at added held
    rw [held, Option.filter_some] at added
    split at added
    · next m counted =>
      split at counted
      · cases counted
        exact checked added
      · cases counted
    · cases added

/-- The size is the one that a reader gets. -/
theorem settles_audienceSize {n : Int} (held : s.audienceSize? l segment = some n) :
    Settles (l.audienceSize segment) s (.ok (Int64.ofInt n)) s := by
  rw [audienceSize?] at held
  cases stored : s.hash? l.audienceKey with
  | error refusal =>
    rw [stored] at held
    cases held
  | ok sizes =>
    simp only [stored] at held
    refine (Settles.hget stored segment.text).bind ?_
    cases found : sizes.get? segment.text with
    | none =>
      rw [found] at held
      cases held
      exact .pure 0
    | some text =>
      rw [found] at held
      have read : Decimal.int64? text.toList = some n := held
      exact .settled (by rw [size?, read])

end Server

open Server

variable {l : Layout} {spared minted : Uuid → Prop} {segment : Uuid} {own : Option Uuid} {v v' : Int}
  {s s' s'' : Server} {α β : Type}

/-- A command sent by a call: it writes no record that the call has to spare, lists no segment anew or no
more, and what it adds to the size of one segment goes into the sum of the call. -/
structure Adds (l : Layout) (spared : Uuid → Prop) (segment : Uuid) (v : Int) (s : Server) (v' : Int) (s' : Server) :
    Prop where
  others : ∀ id, spared id → s'.get? (l.key (.customer id)) = s.get? (l.key (.customer id))
  listed : s'.get? (l.key .segments) = s.get? (l.key .segments)
  size : s.Lists l segment → ∀ n, s.audienceSize? l segment = some n → s'.audienceSize? l segment = some (n + (v' - v))

/-- A call counts on the others to leave its customer alone and to keep the segment listed. -/
def adding (l : Layout) (spared : Uuid → Prop) (segment : Uuid) (own : Option Uuid) : Conduct Server Int where
  rely s s' := (∀ id, own = some id → s'.get? (l.key (.customer id)) = s.get? (l.key (.customer id))) ∧
    (s.Lists l segment → s'.Lists l segment)
  step := Adds l spared segment
  rely_refl _ := ⟨fun _ _ => rfl, id⟩
  rely_trans first rest := ⟨fun id mine => (rest.1 id mine).trans (first.1 id mine), rest.2 ∘ first.2⟩
  idle _ _ := ⟨fun _ _ => rfl, rfl, fun _ n held => by rw [held, Int.sub_self, Int.add_zero]⟩

/-- A command that writes neither a size, nor which segments are listed, nor a record to be spared. -/
structure Quiet (l : Layout) (spared : Uuid → Prop) (c : Command) : Prop where
  sizes : l.key .audience ∉ c.written
  listed : l.key .segments ∉ c.written
  others : ∀ id, spared id → l.key (.customer id) ∉ c.written

theorem Quiet.of_unwritten {c : Command} (unwritten : c.written = []) : Quiet l spared c :=
  ⟨by simp [unwritten], by simp [unwritten], fun _ _ => by simp [unwritten]⟩

/-- A command that writes one slot, neither that of the sizes nor that of the listed segments. -/
theorem Quiet.of_slot {c : Command} {slot : Slot} (one : c.written = [l.key slot]) (sizes : slot ≠ .audience)
    (listed : slot ≠ .segments) (others : ∀ id, spared id → slot ≠ .customer id) : Quiet l spared c := by
  have differ {other : Slot} (apart : slot ≠ other) : l.key other ∉ c.written := by
    rw [one, List.mem_singleton]
    exact fun same => apart (Layout.key_injective same).symm
  exact ⟨differ sizes, differ listed, fun id kept => differ (others id kept)⟩

theorem Quiet.adds {c : Command} {r : c.Result} (quiet : Quiet l spared c) (executed : s.execute c = .ok (r, s')) :
    Adds l spared segment v s v s' where
  others id kept := execute_keeps executed (quiet.others id kept)
  listed := execute_keeps executed quiet.listed
  size _ n held := by rw [audienceSize?_of_eq (execute_keeps executed quiet.sizes), held, Int.sub_self, Int.add_zero]

/-- An outcome that leaves the sum at a value, on a server that lists the segment. -/
def Summed (l : Layout) (segment : Uuid) (sum : Int) (v : Int) (s : Server) : Prop :=
  v = sum ∧ s.Lists l segment

theorem secures_quiet {c : Command} {post : Except Error c.Result → Int → Server → Prop} (quiet : Quiet l spared c)
    (ends : ∀ s', (adding l spared segment own).rely s s' → ∀ r s'', s'.execute c = .ok (r, s'') →
      ∀ t, (adding l spared segment own).rely s'' t → post (.ok r) v t) :
    Attempt.Secures (serving minted) (adding l spared segment own) (send c) post v s :=
  secures_send fun s' others r s'' executed => ⟨v, quiet.adds executed, ends s' others r s'' executed⟩

theorem send_secures {c : Command} (quiet : Quiet l spared c) (listed : s.Lists l segment) :
    Attempt.Secures (serving minted) (adding l spared segment own) (send c)
      (fun o v' s' => (∃ r, o = .ok r) ∧ Summed l segment v v' s') v s := by
  refine secures_quiet quiet fun s' others r s'' executed t more => ⟨⟨r, rfl⟩, rfl, more.2 ?_⟩
  exact (others.2 listed).of_eq (execute_keeps executed quiet.listed)

/-- An operation that adds nothing, whatever it answers. -/
structure Neutral (l : Layout) (spared minted : Uuid → Prop) (segment : Uuid) (own : Option Uuid) (op : Operation α) :
    Prop where
  secures : ∀ {v s}, s.Lists l segment →
    Attempt.Secures (serving minted) (adding l spared segment own) op (fun _ => Summed l segment v) v s

namespace Neutral

variable {op : Operation α}

theorem send {c : Command} (quiet : Quiet l spared c) : Neutral l spared minted segment own (send c) :=
  ⟨fun listed => (send_secures quiet listed).mono fun _ _ _ => And.right⟩

theorem pure (a : α) : Neutral l spared minted segment own (Pure.pure a) :=
  ⟨fun listed => Attempt.secures_pure fun _ others => ⟨rfl, others.2 listed⟩⟩

theorem throw (e : Error) : Neutral l spared minted segment own (MonadExcept.throw e : Operation α) :=
  ⟨fun listed => Attempt.secures_throw fun _ others => ⟨rfl, others.2 listed⟩⟩

theorem settled (outcome : Except Error α) : Neutral l spared minted segment own (Attempt.settled outcome) :=
  ⟨fun listed => Attempt.secures_settled fun _ others => ⟨rfl, others.2 listed⟩⟩

theorem bind {next : α → Operation β} (first : Neutral l spared minted segment own op)
    (rest : ∀ a, Neutral l spared minted segment own (next a)) : Neutral l spared minted segment own (op >>= next) := by
  refine ⟨fun {v s} listed => Attempt.secures_bind ((first.secures listed).mono fun o v s reached => ?_)⟩
  obtain ⟨rfl, listed⟩ := reached
  cases o with
  | ok a => exact (rest a).secures listed
  | error e => exact fun _ others => ⟨rfl, others.2 listed⟩

theorem fetch {d : Json.Decoder α} (key : String) : Neutral l spared minted segment own (fetch d key) := by
  refine (send (.of_unwritten rfl)).bind fun text => ?_
  cases text with
  | none => exact pure none
  | some text =>
    change Neutral l spared minted segment own (some <$> Attempt.settled (decode d text))
    rw [map_eq_pure_bind]
    exact (settled _).bind fun a => pure (some a)

theorem getSegment (id : Uuid) : Neutral l spared minted segment own (l.getSegment id) := by
  refine (fetch _).bind fun found => ?_
  cases found with
  | none => exact pure none
  | some g =>
    refine bind ((send (.of_unwritten rfl)).bind fun text => ?_) fun size => pure _
    cases text with
    | none => exact pure 0
    | some text => exact settled _

theorem findSegmentByName (name : String) : Neutral l spared minted segment own (l.findSegmentByName name) := by
  refine (send (.of_unwritten rfl)).bind fun owner => ?_
  split
  · exact pure none
  · exact getSegment _

theorem updateSegment (g : Segment) : Neutral l spared minted segment own (l.updateSegment g) := by
  have names {c : Command} (one : c.written = [l.key .names]) : Quiet l spared c :=
    .of_slot one nofun nofun fun _ _ => nofun
  have written : Neutral l spared minted segment own (put (l.segmentKey g.id.text) g.text) :=
    send (@Quiet.of_slot l spared _ (.segment g.id) rfl nofun nofun fun _ _ => nofun)
  refine (fetch _).bind fun found => ?_
  cases found with
  | none => exact throw _
  | some old =>
    dsimp only
    split
    · refine bind ((send (names rfl)).bind fun claimed => ?_) fun _ => written
      cases claimed with
      | true => exact send (names rfl)
      | false =>
        refine (send (.of_unwritten rfl)).bind fun owner => ?_
        split
        · exact (throw _).bind fun _ => send (names rfl)
        · exact send (names rfl)
    · exact written

end Neutral

/-- A task all of whose calls add nothing adds nothing. -/
theorem neutral_of_asksOnly {task : Store.Action α}
    (only : task.AsksOnly (Effect.Within fun c => Neutral l spared minted segment own (l.operation c)))
    (listed : s.Lists l segment) :
    (l.realize task).Secures (serving minted) (adding l spared segment own) (fun _ => Summed l segment v) v s := by
  induction task generalizing s with
  | done a => exact Program.Secures.pure fun _ others => ⟨rfl, others.2 listed⟩
  | ask e next ih =>
    have idle {e : Effect Command} {next : e.Answer Command.Reply → Action α} (unchanged : ∀ s a s',
        (serving minted).answers e s a s' → s' = s) (rest : ∀ a {s}, s.Lists l segment →
        (next a).Secures (serving minted) (adding l spared segment own) (fun _ => Summed l segment v) v s) :
        Task.Secures (serving minted) (adding l spared segment own) (.ask e next) (fun _ => Summed l segment v) v s := by
      refine Program.Secures.ask fun s' others a s'' answered => ?_
      rw [unchanged s' a s'' answered]
      exact ⟨v, (adding l spared segment own).idle _ _, rest a (others.2 listed)⟩
    cases e with
    | now => exact idle (fun _ _ _ => id) fun a => ih a (only.2 a)
    | freshId entity => exact idle (fun _ _ _ => And.right) fun a => ih a (only.2 a)
    | tally metric amount => exact idle (fun _ _ _ => id) fun a => ih a (only.2 a)
    | backend c =>
      refine Program.Secures.bind ((only.1.secures listed).mono fun a v s reached => ?_)
      obtain ⟨rfl, listed⟩ := reached
      exact ih a (only.2 a) listed

/-- A size that is written is the one that readers get, and the others stay. -/
theorem audienceSize?_putHash {sizes : Table String String} (stored : s.hash? l.audienceKey = .ok sizes) (id : Uuid)
    (text : String) :
    audienceSize? l (s.putHash l.audienceKey (sizes.insert id.text text)) segment =
      if id = segment then Decimal.int64? text.toList else s.audienceSize? l segment := by
  rw [audienceSize?, hash?_putHash, audienceSize?, stored]
  dsimp only
  rw [Table.get?_insert]
  by_cases same : id = segment
  · rw [if_pos same, if_pos (congrArg Uuid.text same)]
  · rw [if_neg same, if_neg fun texts => same (Uuid.text_injective texts)]

/-- An addition to a size goes into the sum if it is the size of the segment. -/
theorem incrementAudienceSize_secures (id : Uuid) (delta : Int64) (listed : s.Lists l segment) :
    Attempt.Secures (serving minted) (adding l spared segment own) (l.incrementAudienceSize id delta)
      (fun _ => Summed l segment (v + if id = segment then delta.toInt else 0)) v s := by
  refine Attempt.secures_bind (secures_send fun s' others r s'' executed => ?_)
  have listed' := others.2 listed
  have kept {slot : Slot} (apart : slot ≠ .audience) : s''.get? (l.key slot) = s'.get? (l.key slot) :=
    execute_keeps executed fun mem => apart (Layout.key_injective (List.mem_singleton.1 mem))
  refine ⟨v + if id = segment then delta.toInt else 0, ⟨fun _ _ => kept nofun, kept nofun, fun _ n held => ?_⟩, ?_⟩
  · obtain ⟨ids, known, written⟩ := execute_incrementIfLive.1 executed
    split at written
    · obtain ⟨sizes, size, stored, added, _, rfl⟩ := written
      rw [audienceSize?_putHash stored]
      by_cases same : id = segment
      · subst same
        obtain ⟨rfl, least, most⟩ := added?_eq_ok stored added held
        rw [if_pos rfl, if_pos rfl, String.toList_ofList, Decimal.int64?_ofInt least most]
        exact congrArg some (by omega)
      · rw [if_neg same, if_neg same, held]
        exact congrArg some (by omega)
    · next unlisted =>
      obtain ⟨ids', known', mem⟩ := listed'
      rw [known] at known'
      cases known'
      have other : id ≠ segment := fun same => unlisted (same ▸ mem)
      rw [written.2, held, if_neg other]
      exact congrArg some (by omega)
  · intro t more
    have listed'' := listed'.of_eq (kept nofun)
    cases r with
    | none => exact Attempt.secures_throw fun _ others => ⟨rfl, others.2 (more.2 listed'')⟩
    | some size => exact Attempt.secures_pure fun _ others => ⟨rfl, others.2 (more.2 listed'')⟩

theorem Summed.rely (summed : Summed l segment v v' s) (others : (adding l spared segment own).rely s s') :
    Summed l segment v v' s' :=
  ⟨summed.1, others.2 summed.2⟩

/-- What a batch of additions adds to the size of one segment. -/
theorem applyDelta_secures (delta : Int64) (ids : List Uuid) (listed : s.Lists l segment) :
    (l.realize (Audience.applyDelta delta ids)).Secures (serving minted) (adding l spared segment own)
      (fun _ => Summed l segment (v + ids.count segment * delta.toInt)) v s := by
  induction ids generalizing v s with
  | nil => exact Program.Secures.pure fun s' others => ⟨by simp, others.2 listed⟩
  | cons head rest ih =>
    have left : (v + if head = segment then delta.toInt else 0) + rest.count segment * delta.toInt =
        v + (head :: rest).count segment * delta.toInt := by
      rw [List.count_cons]
      by_cases same : head = segment
      · simp only [same, beq_self_eq_true, if_true]
        grind
      · simp only [same, beq_iff_eq, if_false, Nat.add_zero, Int.add_zero]
    have others (metric : Metric) (first : DeltaOutcome) {v' : Int} {t : Server}
        (reached : Summed l segment (v + if head = segment then delta.toInt else 0) v' t) :
        (l.realize (do
          Task.tally metric 1
          return first ++ (← Audience.applyDelta delta rest))).Secures (serving minted) (adding l spared segment own)
        (fun _ => Summed l segment (v + (head :: rest).count segment * delta.toInt)) v' t := by
      rw [Layout.realize_bind]
      refine Program.Secures.bind (Task.secures_tally metric 1 fun t' more => ?_)
      rw [Layout.realize_bind, ← left, ← reached.1]
      refine Program.Secures.bind ((ih (reached.rely more).2).mono fun outcome v' s reached => ?_)
      exact Program.Secures.pure fun _ more => reached.rely more
    rw [Audience.applyDelta, Layout.realize_bind, Layout.realize_call]
    refine Program.Secures.bind ((incrementAudienceSize_secures head delta listed).mono fun o v' t reached => ?_)
    cases o with
    | ok size => exact others .deltasApplied ⟨[head], []⟩ reached
    | error e => exact others .deltasFailed ⟨[], [head]⟩ reached

theorem gain_eq_count (before after : IdSet) (segment : Uuid) :
    before.gain after segment = after.toList.count segment - before.toList.count segment := by
  rw [IdSet.gain, IdSet.count_toList, IdSet.count_toList]
  split <;> split <;> rfl

theorem customerCreated_secures (c : Customer) (listed : s.Lists l segment) :
    (l.realize (Audience.customerCreated c)).Secures (serving minted) (adding l spared segment own)
      (fun _ => Summed l segment (v + IdSet.empty.gain c.segments segment)) v s := by
  have added : (c.segments.toList.count segment : Int) * Int64.toInt 1 = IdSet.empty.gain c.segments segment := by
    rw [gain_eq_count, show Int64.toInt 1 = 1 from rfl, Int.mul_one]
    exact (Int.sub_zero _).symm
  rw [← added]
  exact applyDelta_secures 1 _ listed

theorem customerDeleted_secures (c : Customer) (listed : s.Lists l segment) :
    (l.realize (Audience.customerDeleted c)).Secures (serving minted) (adding l spared segment own)
      (fun _ => Summed l segment (v + c.segments.gain .empty segment)) v s := by
  have added : (c.segments.toList.count segment : Int) * Int64.toInt (-1) = c.segments.gain .empty segment := by
    rw [gain_eq_count, show Int64.toInt (-1) = -1 from rfl, show IdSet.empty.toList.count segment = 0 from rfl]
    omega
  rw [← added]
  exact applyDelta_secures (-1) _ listed

theorem customerUpdated_secures (before after : IdSet) (listed : s.Lists l segment) :
    (l.realize (Audience.customerUpdated before after)).Secures (serving minted) (adding l spared segment own)
      (fun _ => Summed l segment (v + before.gain after segment)) v s := by
  have added : ((after.diff before).toList.count segment : Int) * Int64.toInt 1 +
      (before.diff after).toList.count segment * Int64.toInt (-1) = before.gain after segment := by
    rw [show Int64.toInt 1 = 1 from rfl, show Int64.toInt (-1) = -1 from rfl]
    simp only [IdSet.gain, IdSet.count_toList, IdSet.mem_diff]
    by_cases was : segment ∈ before <;> by_cases now : segment ∈ after <;> simp [was, now]
  rw [← added, ← Int.add_assoc, Audience.customerUpdated, Layout.realize_bind]
  refine Program.Secures.bind ((applyDelta_secures 1 _ listed).mono fun gained v' s' reached => ?_)
  obtain ⟨rfl, listed⟩ := reached
  rw [Layout.realize_bind]
  refine Program.Secures.bind ((applyDelta_secures (-1) _ listed).mono fun lost v' s' reached => ?_)
  exact Program.Secures.pure fun _ more => reached.rely more

/-- What a look at the record of a customer gives: the customer who is stored, or no customer at all. -/
def Finds (stored : Option Customer) : Except Error (Option Customer) → Prop
  | .ok found => found = stored
  | .error _ => stored = none

/-- A call finds the customer whom it has to itself as the call found him stored. -/
theorem getCustomer_secures {id : Uuid} (mine : own = some id) (listed : s.Lists l segment) :
    Attempt.Secures (serving minted) (adding l spared segment own) (l.getCustomer id)
      (fun o v' s' => Finds (s.customer? l id) o ∧ s'.customer? l id = s.customer? l id ∧ Summed l segment v v' s') v s := by
  refine Attempt.secures_bind (secures_quiet (.of_unwritten rfl) fun s₁ others text s₂ executed s₃ more => ?_)
  obtain ⟨read, rfl⟩ := execute_get.1 executed
  have stored : s.customer? l id = text.bind fun text => (Customer.decoder.decodeText text).toOption := by
    rw [← customer?_of_eq (others.1 id mine), customer?, read]
    cases text <;> rfl
  have kept {t : Server} (last : (adding l spared segment own).rely s₃ t) :
      t.customer? l id = s.customer? l id ∧ Summed l segment v v t := by
    refine ⟨?_, rfl, last.2 (more.2 (others.2 listed))⟩
    rw [customer?_of_eq (last.1 id mine), customer?_of_eq (more.1 id mine), customer?_of_eq (others.1 id mine)]
  cases text with
  | none => exact Attempt.secures_pure fun _ last => ⟨stored.symm, kept last⟩
  | some text =>
    refine Attempt.secures_map (Attempt.secures_settled fun _ last => ⟨?_, kept last⟩)
    rw [stored, decode, Option.bind_some]
    cases Customer.decoder.decodeText text with
    | ok c => exact Eq.refl (some c)
    | error e => exact Eq.refl none

theorem Quiet.of_customer {c : Command} {id : Uuid} (one : c.written = [l.key (.customer id)]) (free : ¬ spared id) :
    Quiet l spared c :=
  .of_slot one nofun nofun fun _ kept same => free (Slot.customer.inj same ▸ kept)

theorem Quiet.of_customers {c : Command} (one : c.written = [l.key .customers]) : Quiet l spared c :=
  .of_slot one nofun nofun fun _ _ => nofun

theorem insertCustomer_secures {c : Customer} (free : ¬ spared c.id) (listed : s.Lists l segment) :
    Attempt.Secures (serving minted) (adding l spared segment own) (l.insertCustomer c)
      (fun o v' s' => o = .ok () ∧ Summed l segment v v' s') v s := by
  have record : Quiet l spared (.set (l.customerKey c.id.text) c.text) :=
    .of_customer rfl free
  have member : Quiet l spared (.sadd l.customersKey c.id.text) := .of_customers rfl
  refine Attempt.secures_bind ((send_secures record listed).mono ?_)
  rintro _ _ s' ⟨⟨_, rfl⟩, rfl, listed⟩
  exact (send_secures member listed).mono fun _ _ _ ⟨⟨_, done⟩, reached⟩ => ⟨done, reached⟩

/-- A call replaces the customer whom it has to itself and found stored. -/
theorem updateCustomer_secures {c old : Customer} (mine : own = some c.id) (free : ¬ spared c.id)
    (stored : s.customer? l c.id = some old) (listed : s.Lists l segment) :
    Attempt.Secures (serving minted) (adding l spared segment own) (l.updateCustomer c)
      (fun o v' s' => o = .ok () ∧ Summed l segment v v' s') v s := by
  refine Attempt.secures_bind (secures_quiet (.of_unwritten rfl) fun s₁ others present s₂ executed s₃ more => ?_)
  obtain ⟨rfl, rfl⟩ := execute_contains.1 executed
  have there : Table.contains s₂ (l.customerKey c.id.text) = true := by
    rw [← customer?_of_eq (others.1 _ mine), customer?, string?] at stored
    rw [Table.contains]
    cases found : Table.get? s₂ (l.customerKey c.id.text) with
    | none =>
      rw [found] at stored
      cases stored
    | some entry => rfl
  have record : Quiet l spared (.set (l.customerKey c.id.text) c.text) := .of_customer rfl free
  dsimp only
  rw [there, if_pos rfl]
  refine (send_secures record (more.2 (others.2 listed))).mono ?_
  rintro _ _ _ ⟨⟨_, done⟩, reached⟩
  exact ⟨done, reached⟩

theorem deleteCustomer_secures {id : Uuid} (mine : own = some id) (free : ∀ c, s.customer? l id = some c → ¬ spared id)
    (listed : s.Lists l segment) :
    Attempt.Secures (serving minted) (adding l spared segment own) (l.deleteCustomer id)
      (fun o v' s' => Finds (s.customer? l id) o ∧ Summed l segment v v' s') v s := by
  refine Attempt.secures_bind ((getCustomer_secures mine listed).mono fun o v' s' ⟨found, _, reached⟩ => ?_)
  cases o with
  | error e => exact fun _ others => ⟨found, reached.rely others⟩
  | ok stored =>
    cases stored with
    | none => exact Attempt.secures_pure fun _ others => ⟨found, reached.rely others⟩
    | some c =>
      obtain ⟨rfl, listed⟩ := reached
      have record : Quiet l spared (.del (l.customerKey id.text)) := .of_customer rfl (free c (Eq.symm found))
      have member : Quiet l spared (.srem l.customersKey id.text) := .of_customers rfl
      refine Attempt.secures_bind ((send_secures record listed).mono ?_)
      rintro _ _ s' ⟨⟨_, rfl⟩, rfl, listed⟩
      refine Attempt.secures_bind ((send_secures member listed).mono ?_)
      rintro _ _ s' ⟨⟨_, rfl⟩, reached⟩
      exact Attempt.secures_pure fun _ others => ⟨found, reached.rely others⟩

end Redis

end CustomerSegments
