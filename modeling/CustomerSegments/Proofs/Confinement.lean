import CustomerSegments.Proofs.RecordLoading
import CustomerSegments.Proofs.TouchedKeys

namespace CustomerSegments.Redis

namespace Server

variable {s s' : Server} {key text : String}

/-- A text is in the set under a key. -/
def Includes (s : Server) (key text : String) : Prop :=
  ∃ members, s.get? key = some (.set members) ∧ text ∈ members.keys

theorem not_includes_insert_string {value : String} : ¬ Includes (Table.insert s key (.string value)) key text := by
  rintro ⟨members, stored, -⟩
  rw [Table.get?_insert, if_pos rfl] at stored
  cases stored

theorem not_includes_erase : ¬ Includes (Table.erase s key) key text := by
  rintro ⟨members, stored, -⟩
  rw [Table.get?_erase, if_pos rfl] at stored
  cases stored

theorem not_includes_putHash {fields : Table String String} : ¬ (s.putHash key fields).Includes key text := by
  rw [putHash]
  split
  · exact not_includes_erase
  · rintro ⟨members, stored, -⟩
    rw [Table.get?_insert, if_pos rfl] at stored
    cases stored

theorem Includes.of_putSet {members : Table String Unit} (includes : (s.putSet key members).Includes key text) :
    text ∈ members.keys := by
  rw [putSet] at includes
  split at includes
  · exact absurd includes not_includes_erase
  · obtain ⟨found, stored, mem⟩ := includes
    rw [Table.get?_insert, if_pos rfl] at stored
    cases stored
    exact mem

theorem Includes.of_set? {members : Table String Unit} (found : s.set? key = .ok members) (mem : text ∈ members.keys) :
    s.Includes key text := by
  unfold set? at found
  split at found
  · cases found
    cases mem
  · next stored =>
    cases found
    exact ⟨members, stored, mem⟩
  · cases found

/-- What is in a set after a command was there before, unless the command put it in. -/
theorem Includes.before {c : Command} {r : c.Result} (executed : s.execute c = .ok (r, s')) (includes : s'.Includes key text) :
    s.Includes key text ∨ c = .sadd key text := by
  by_cases written : key ∈ c.written
  · -- only `sadd` and `srem` leave a set there, the other writes a string, a hash or nothing
    cases c with
    | ping | get other | contains other | mget keys | smembers other | hget other field | hgetall other => cases written
    | set other value =>
      cases List.mem_singleton.1 written
      cases execute_set.1 executed
      exact absurd includes not_includes_insert_string
    | del other =>
      cases List.mem_singleton.1 written
      cases execute_del.1 executed
      exact absurd includes not_includes_erase
    | sadd other element =>
      cases List.mem_singleton.1 written
      obtain ⟨members, found, rfl⟩ := execute_sadd.1 executed
      obtain ⟨⟨_, _⟩, entered, rfl⟩ := List.mem_map.1 includes.of_putSet
      rcases Table.mem_place entered with same | old
      · cases same
        exact .inr rfl
      · exact .inl (.of_set? found (List.mem_map.2 ⟨_, old, rfl⟩))
    | srem other element =>
      cases List.mem_singleton.1 written
      obtain ⟨members, found, rfl⟩ := execute_srem.1 executed
      obtain ⟨entry, left, rfl⟩ := List.mem_map.1 includes.of_putSet
      exact .inl (.of_set? found (List.mem_map.2 ⟨entry, (List.mem_filter.1 left).1, rfl⟩))
    | hset other field value =>
      cases List.mem_singleton.1 written
      obtain ⟨_, _, rfl⟩ := execute_hset.1 executed
      exact absurd includes not_includes_putHash
    | hsetnx other field value =>
      cases List.mem_singleton.1 written
      obtain ⟨_, _, _, rfl⟩ := execute_hsetnx.1 executed
      split at includes
      · exact .inl includes
      · exact absurd includes not_includes_putHash
    | hdel other field =>
      cases List.mem_singleton.1 written
      obtain ⟨_, _, rfl⟩ := execute_hdel.1 executed
      exact absurd includes not_includes_putHash
    | incrementIfLive live hash field delta =>
      cases List.mem_singleton.1 written
      obtain ⟨_, _, outcome⟩ := execute_incrementIfLive.1 executed
      split at outcome
      · obtain ⟨_, _, _, _, _, rfl⟩ := outcome
        exact absurd includes not_includes_putHash
      · obtain ⟨-, rfl⟩ := outcome
        exact .inl includes
    | setIfLive live hash field size =>
      cases List.mem_singleton.1 written
      obtain ⟨_, _, _, outcome⟩ := execute_setIfLive.1 executed
      split at outcome
      · obtain ⟨_, _, rfl⟩ := outcome
        exact absurd includes not_includes_putHash
      · subst outcome
        exact .inl includes
    | compareAndSet other expected replacement =>
      cases List.mem_singleton.1 written
      obtain ⟨_, _, _, rfl⟩ := execute_compareAndSet.1 executed
      split at includes
      · exact absurd includes not_includes_insert_string
      · exact .inl includes
  · obtain ⟨members, stored, mem⟩ := includes
    rw [execute_keeps executed written] at stored
    exact .inl ⟨members, stored, mem⟩

end Server

namespace Layout

/-- A key of a layout. -/
def Owns (l : Layout) (key : String) : Prop :=
  ∃ slot, l.key slot = key

theorem owns (l : Layout) (slot : Slot) : l.Owns (l.key slot) := ⟨slot, rfl⟩

/-- What may be sent for a layout: commands for its keys. Only identifiers go into sets, and only the sets of its
records are listed. -/
def Permits (l : Layout) : Command → Prop
  | .sadd key element => l.Owns key ∧ ∃ id : Uuid, id.text = element
  | .smembers key => key = l.customersKey ∨ key = l.segmentsKey
  | c => ∀ key ∈ c.keys, l.Owns key

theorem Permits.owns {l : Layout} {c : Command} (permits : l.Permits c) {key : String} (mem : key ∈ c.keys) :
    l.Owns key := by
  cases c with
  | sadd other element =>
    cases List.mem_singleton.1 mem
    exact permits.1
  | smembers other =>
    cases List.mem_singleton.1 mem
    rcases permits with rfl | rfl
    · exact l.owns .customers
    · exact l.owns .segments
  | ping | get other | set other value | del other | contains other | mget keys | srem other element
  | hget other field | hset other field value | hsetnx other field value | hdel other field | hgetall other
  | incrementIfLive live hash field delta | setIfLive live hash field size
  | compareAndSet other expected replacement => exact permits key mem

/-- The sets of the records of a layout list nothing but identifiers. -/
def ListsIds (l : Layout) (s : Server) : Prop :=
  ∀ slot ∈ [Slot.customers, .segments], ∀ text, s.Includes (l.key slot) text → ∃ id : Uuid, id.text = text

theorem owns_only (l : Layout) (slot : Slot) : ∀ key ∈ [l.key slot], l.Owns key := by
  intro key mem
  exact ⟨slot, (List.mem_singleton.1 mem).symm⟩

theorem owns_both (l : Layout) (a b : Slot) : ∀ key ∈ [l.key a, l.key b], l.Owns key := by
  intro key mem
  rcases List.mem_cons.1 mem with rfl | mem
  · exact l.owns a
  · exact l.owns_only b key mem

end Layout

variable {l : Layout} {α β : Type}

/-- A reply of a server whose sets list nothing but identifiers. The keys of records are made from what is listed. -/
def Credible : (e : Effect Command) → e.Answer Command.Reply → Prop
  | .backend (.smembers _), reply => ∀ texts, reply = .ok texts → ∀ text ∈ texts, ∃ id : Uuid, id.text = text
  | _, _ => True

/-- A task that sends only what is permitted for a layout, as long as the replies are credible. -/
def Confined (l : Layout) : Action α → Prop
  | .done _ => True
  | .ask e next => e.Within l.Permits ∧ ∀ reply, Credible e reply → Confined l (next reply)

theorem Confined.bind {task : Action α} {next : α → Action β} (first : Confined l task)
    (later : ∀ a, Confined l (next a)) : Confined l (task >>= next) := by
  change Confined l (Program.bind task next)
  induction task with
  | done a => exact later a
  | ask e rest ih => exact ⟨first.1, fun reply credible => ih reply (first.2 reply credible)⟩

/-- An operation that keeps to a layout. -/
structure Stays (l : Layout) (op : Operation α) : Prop where
  confined : Confined l op.run

namespace Stays

variable {op : Operation α} {next : α → Operation β}

theorem pure (a : α) : Stays l (Pure.pure a) := ⟨trivial⟩

theorem throw (e : Error) : Stays l (MonadExcept.throw e : Operation α) := ⟨trivial⟩

theorem settled (outcome : Except Error α) : Stays l (Attempt.settled outcome) := ⟨trivial⟩

theorem now : Stays l Attempt.now := ⟨trivial, fun _ _ => trivial⟩

theorem bind (first : Stays l op) (later : ∀ a, Stays l (next a)) : Stays l (op >>= next) := by
  refine ⟨first.confined.bind fun outcome => ?_⟩
  cases outcome with
  | ok a => exact (later a).confined
  | error e => trivial

theorem map (f : α → β) (first : Stays l op) : Stays l (f <$> op) := by
  rw [map_eq_pure_bind]
  exact first.bind fun a => pure (f a)

theorem send {c : Command} (permitted : l.Permits c) : Stays l (Redis.send c) := by
  refine ⟨permitted, fun reply _ => ?_⟩
  cases reply with
  | ok result => trivial
  | error refusal => trivial

/-- What follows a listing may count on identifiers. -/
theorem smembers_bind {key : String} {next : List String → Operation β}
    (listed : key = l.customersKey ∨ key = l.segmentsKey)
    (later : ∀ texts, (∀ text ∈ texts, ∃ id : Uuid, id.text = text) → Stays l (next texts)) :
    Stays l (Redis.send (.smembers key) >>= next) := by
  refine ⟨listed, fun reply credible => ?_⟩
  cases reply with
  | ok texts => exact (later texts (credible texts rfl)).confined
  | error refusal => trivial

theorem fetch (d : Json.Decoder α) (slot : Slot) : Stays l (Redis.fetch d (l.key slot)) := by
  refine bind (send (l.owns_only slot)) fun text => ?_
  cases text with
  | none => exact pure none
  | some text => exact (settled _).map some

theorem loadPages (d : Json.Decoder α) {pages : List (List String)} (owned : ∀ keys ∈ pages, ∀ key ∈ keys, l.Owns key) :
    Stays l (Redis.loadPages d pages) := by
  induction pages with
  | nil => exact pure []
  | cons keys rest ih =>
    refine bind (send (owned keys List.mem_cons_self)) fun texts => (settled _).bind fun records => ?_
    exact (ih fun keys mem => owned keys (List.mem_cons_of_mem _ mem)).bind fun others => pure _

/-- The records of listed identifiers are under keys of the layout. -/
theorem loadAll (d : Json.Decoder α) {set : String} {keyOf : String → String}
    (listed : set = l.customersKey ∨ set = l.segmentsKey) (owned : ∀ id : Uuid, l.Owns (keyOf id.text)) :
    Stays l (Redis.loadAll l d set keyOf) := by
  refine smembers_bind listed fun texts ids => loadPages d fun keys mem key inside => ?_
  obtain ⟨page, paged, rfl⟩ := List.mem_map.1 mem
  obtain ⟨text, there, rfl⟩ := List.mem_map.1 inside
  have among : text ∈ (pages l.pageSize texts).flatten := List.mem_flatten.2 ⟨page, paged, there⟩
  rw [flatten_pages] at among
  obtain ⟨id, rfl⟩ := ids text among
  exact owned id

theorem listCustomers : Stays l l.listCustomers :=
  (loadAll _ (.inl rfl) fun id => l.owns (.customer id)).bind fun _ => pure _

theorem getSegment (id : Uuid) : Stays l (l.getSegment id) := by
  refine (fetch Segment.decoder (.segment id)).bind fun found => ?_
  cases found with
  | none => exact pure none
  | some g =>
    refine bind (bind (send (l.owns_only .audience)) fun text => ?_) fun size => pure _
    cases text with
    | none => exact pure 0
    | some text => exact settled _

theorem stripSegment (now : Instant) (segment customer : Uuid) (rounds : Nat) :
    Stays l (l.stripSegment now segment customer rounds) := by
  induction rounds with
  | zero => exact throw _
  | succ rounds ih =>
    refine bind (send (l.owns_only (.customer customer))) fun text => ?_
    cases text with
    | none => exact pure false
    | some text =>
      refine (settled _).bind fun c => ?_
      split
      · refine bind (send (l.owns_only (.customer customer))) fun swapped => ?_
        split
        · exact pure true
        · exact ih
      · exact pure false

theorem stripAll (now : Instant) (segment : Uuid) (customers : List Customer) :
    Stays l (l.stripAll now segment customers) := by
  induction customers with
  | nil => exact pure 0
  | cons c rest ih =>
    rw [Layout.stripAll]
    split
    · exact (stripSegment now segment c.id Layout.swapRounds).bind fun stripped => ih.bind fun others => pure _
    · exact (pure false).bind fun stripped => ih.bind fun others => pure _

theorem insertSegment (g : Segment) : Stays l (l.insertSegment g) := by
  refine bind (send (l.owns_only .names)) fun claimed => ?_
  split
  · refine bind (send (l.owns_only (.segment g.id))) fun _ => ?_
    exact bind (send ⟨l.owns .segments, g.id, rfl⟩) fun _ => send (l.owns_only .audience)
  · exact throw _

theorem rename (id : Uuid) (old new : String) : Stays l (l.rename id old new) := by
  refine bind (send (l.owns_only .names)) fun claimed => ?_
  cases claimed with
  | true => exact send (l.owns_only .names)
  | false =>
    refine bind (send (l.owns_only .names)) fun owner => ?_
    split
    · exact (throw _).bind fun _ => send (l.owns_only .names)
    · exact send (l.owns_only .names)

theorem updateSegment (g : Segment) : Stays l (l.updateSegment g) := by
  have written : Stays l (put (l.segmentKey g.id.text) g.text) := send (l.owns_only (.segment g.id))
  refine (fetch Segment.decoder (.segment g.id)).bind fun found => ?_
  cases found with
  | none => exact throw _
  | some old =>
    dsimp only
    split
    · exact (rename g.id old.name g.name).bind fun _ => written
    · exact written

theorem deleteSegment (id : Uuid) : Stays l (l.deleteSegment id) := by
  refine (getSegment id).bind fun found => ?_
  cases found with
  | none => exact pure none
  | some g =>
    refine bind (send (l.owns_only (.segment id))) fun _ => bind (send (l.owns_only .segments)) fun _ => ?_
    exact bind (send (l.owns_only .names)) fun _ => bind (send (l.owns_only .audience)) fun _ => pure _

/-- A call keeps to the keys of its layout. -/
theorem operation (call : Store.Call) : Stays l (l.operation call) := by
  cases call with
  | insertCustomer c =>
    exact bind (send (l.owns_only (.customer c.id))) fun _ => send ⟨l.owns .customers, c.id, rfl⟩
  | getCustomer id => exact fetch _ (.customer id)
  | updateCustomer c =>
    refine bind (send (l.owns_only (.customer c.id))) fun present => ?_
    split
    · exact send (l.owns_only (.customer c.id))
    · exact throw _
  | deleteCustomer id =>
    refine (fetch Customer.decoder (.customer id)).bind fun found => ?_
    cases found with
    | none => exact pure none
    | some c =>
      exact bind (send (l.owns_only (.customer id))) fun _ => bind (send (l.owns_only .customers)) fun _ => pure _
  | listCustomers => exact listCustomers
  | countMatching p => exact listCustomers.bind fun _ => pure _
  | removeSegmentFromAll segment =>
    exact now.bind fun now => listCustomers.bind fun _ => stripAll now segment _
  | insertSegment g => exact insertSegment g
  | getSegment id => exact getSegment id
  | findSegmentByName name =>
    refine bind (send (l.owns_only .names)) fun owner => ?_
    split
    · exact pure none
    · exact getSegment _
  | updateSegment g => exact updateSegment g
  | deleteSegment id => exact deleteSegment id
  | listSegments =>
    refine (loadAll _ (.inr rfl) fun id => l.owns (.segment id)).bind fun segments => ?_
    exact bind (send (l.owns_only .audience)) fun rows => (settled _).bind fun sizes => pure _
  | setAudienceSize id size =>
    refine bind (send (l.owns_both .segments .audience)) fun written => ?_
    cases written with
    | true => exact pure ()
    | false => exact throw _
  | incrementAudienceSize id delta =>
    refine bind (send (l.owns_both .segments .audience)) fun size => ?_
    cases size with
    | none => exact throw _
    | some size => exact pure _
  | ping => exact send fun key mem => nomatch mem

end Stays

/-- A task over a store keeps to the keys of the store's layout. -/
theorem confined_realize (l : Layout) (task : Store.Action α) : Confined l (l.realize task) := by
  induction task with
  | done a => trivial
  | ask e next ih =>
    refine Confined.bind ?_ ih
    cases e with
    | now | freshId entity | tally metric amount => exact ⟨trivial, fun _ _ => trivial⟩
    | backend call => exact (Stays.operation call).confined

section

variable {s : Server} {c : Command}

/-- Whatever is permitted for any layout, only identifiers are listed afterwards. -/
theorem Layout.ListsIds.answer {l' : Layout} (lists : l.ListsIds s) (permits : l'.Permits c) :
    l.ListsIds (s.answer c).2 := by
  intro slot ofRecords text listed
  rw [Server.answer] at listed
  cases executed : s.execute c with
  | ok reply =>
    rw [executed] at listed
    rcases listed.before executed with old | rfl
    · exact lists slot ofRecords text old
    · exact permits.2
  | error refusal =>
    rw [executed] at listed
    exact lists slot ofRecords text listed

theorem credible_answer (lists : l.ListsIds s) (permits : l.Permits c) : Credible (.backend c) (s.answer c).1 := by
  cases c with
  | smembers key =>
    intro texts replied text mem
    rw [Server.answer, Server.execute] at replied
    cases found : s.set? key with
    | ok members =>
      rw [found] at replied
      cases replied
      have listed : s.Includes key text := .of_set? found mem
      rcases permits with rfl | rfl
      · exact lists .customers (by simp) text listed
      · exact lists .segments (by simp) text listed
    | error refusal =>
      rw [found] at replied
      cases replied
  | _ => trivial

end

end CustomerSegments.Redis
