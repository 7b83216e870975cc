import CustomerSegments.Proofs.RecordLoading
import CustomerSegments.Proofs.Tables
import CustomerSegments.Redis.Connect
import CustomerSegments.Redis.Traffic
import Mathlib.Algebra.Order.Floor.Div

namespace CustomerSegments.Redis

section

variable {α : Type}

/-- So many pages are enough exactly if there are enough places on them. -/
theorem length_pages_le_iff {size k : Nat} {l : List α} : (pages size l).length ≤ k ↔ l.length ≤ max size 1 * k := by
  fun_induction pages size l generalizing k with
  | case1 l bare => simp [List.isEmpty_iff.1 bare]
  | case2 l some ih =>
    have first : 0 < l.length := List.length_pos_iff.2 fun none => some (List.isEmpty_iff.2 none)
    cases k with
    | zero =>
      rw [List.length_cons, Nat.mul_zero]
      omega
    | succ k =>
      rw [List.length_cons, Nat.succ_le_succ_iff, ih, List.length_drop, Nat.mul_succ]
      omega

theorem length_pages (size : Nat) (l : List α) : (pages size l).length = l.length ⌈/⌉ max size 1 :=
  eq_of_forall_ge_iff fun _ => length_pages_le_iff.trans (ceilDiv_le_iff_le_mul (lt_max_of_lt_right Nat.one_pos)).symm

/-- No page is empty, and none is longer than its size allows. -/
theorem of_mem_pages {size : Nat} {l page : List α} (mem : page ∈ pages size l) :
    page ≠ [] ∧ page.length ≤ max size 1 := by
  fun_induction pages size l with
  | case1 l bare => cases mem
  | case2 l some ih =>
    rcases List.mem_cons.1 mem with rfl | mem
    · refine ⟨fun none => ?_, List.length_take_le _ _⟩
      rcases List.take_eq_nil_iff.1 none with zero | none
      · omega
      · exact some (List.isEmpty_iff.2 none)
    · exact ih mem

end

/-- The server refuses nothing, and no other client waits to write. -/
structure Traffic.Undisturbed (t : Traffic) : Prop where
  refused : t.refused = []
  intrusions : t.intrusions = []

theorem Traffic.Undisturbed.answer {t : Traffic} (alone : t.Undisturbed) (c : Command) (now : Instant) :
    t.answer c now = ((t.server.answer c).1, { t with server := (t.server.answer c).2, sent := t.sent ++ [c] }) := by
  obtain ⟨server, refused, intrusions, sent⟩ := t
  obtain ⟨rfl, rfl⟩ := alone
  rfl

/-- In undisturbed traffic, an operation sends some commands, comes to an outcome and leaves a server as it is. -/
structure Looks {α : Type} (op : Operation α) (s : Server) (sent : List Command) (o : Except Error α) : Prop where
  run : ∀ w : World Traffic, w.state.Undisturbed → w.state.server = s → ∃ readings, World.run Traffic.answer op.run w =
    (o, { w with state := { w.state with sent := w.state.sent ++ sent }, readings := readings })

namespace Looks

variable {α β : Type} {op : Operation α} {next : α → Operation β} {s : Server} {sent more : List Command}

theorem settled {outcome o : Except Error α} (same : outcome = o) : Looks (Attempt.settled outcome) s [] o := by
  subst same
  refine ⟨fun w _ _ => ⟨w.readings, ?_⟩⟩
  rw [List.append_nil]
  rfl

theorem pure (a : α) : Looks (Pure.pure a) s [] (.ok a) :=
  settled rfl

theorem bind {a : α} {o : Except Error β} (first : Looks op s sent (.ok a)) (rest : Looks (next a) s more o) :
    Looks (op >>= next) s (sent ++ more) o := by
  refine ⟨fun w alone same => ?_⟩
  obtain ⟨later, ran⟩ := first.run w alone same
  obtain ⟨last, ended⟩ := rest.run { w with state := { w.state with sent := w.state.sent ++ sent }, readings := later }
    ⟨alone.refused, alone.intrusions⟩ same
  refine ⟨last, ?_⟩
  rw [ExceptT.run_bind, World.run_bind, ran, ← List.append_assoc]
  exact ended

theorem bind_pure {a : α} (first : Looks op s sent (.ok a)) (f : α → β) :
    Looks (op >>= fun a => Pure.pure (f a)) s sent (.ok (f a)) := by
  have ran : Looks (op >>= fun a => Pure.pure (f a)) s (sent ++ []) (.ok (f a)) := first.bind (pure (f a))
  rwa [List.append_nil] at ran

theorem send {c : Command} {r : c.Result} (executed : s.execute c = .ok (r, s)) : Looks (Redis.send c) s [c] (.ok r) := by
  refine ⟨fun w alone same => ⟨w.readings + 1, ?_⟩⟩
  have answered : w.state.server.answer c = (.ok r, w.state.server) := by
    rw [Server.answer, same, executed]
  rw [Redis.send, ExceptT.run_mk, World.run_bind, World.run_backend, alone.answer, answered]
  rfl

end Looks

section

variable {α : Type} {d : Json.Decoder α} {s : Server} {keyOf : String → String} {records : String → Option α}

/-- Every page is loaded with one command. -/
theorem loadPages_looks (pages : List (List String))
    (loads : ∀ id ∈ pages.flatten, Loads d s (keyOf id) (records id)) :
    Looks (loadPages d (pages.map (·.map keyOf))) s (pages.map fun page => .mget (page.map keyOf))
      (.ok (pages.flatten.filterMap records)) := by
  induction pages with
  | nil => exact .pure _
  | cons ids rest ih =>
    rw [List.flatten_cons] at loads
    have decoded := (mapM_page s d keyOf ids).trans (mapM_decode fun id mem => loads id (List.mem_append_left _ mem))
    have others := ih fun id mem => loads id (List.mem_append_right _ mem)
    rw [List.flatten_cons, List.filterMap_append]
    exact (Looks.send rfl).bind ((Looks.settled decoded).bind (others.bind_pure _))

theorem loadAll_looks {l : Layout} {set : String} {ids : Table String Unit} (listed : s.set? set = .ok ids)
    (loads : ∀ id ∈ ids.keys, Loads d s (keyOf id) (records id)) :
    Looks (loadAll l d set keyOf) s (.smembers set :: (pages l.pageSize ids.keys).map fun page => .mget (page.map keyOf))
      (.ok (ids.keys.filterMap records)) := by
  have loaded := loadPages_looks (pages l.pageSize ids.keys) (by rwa [flatten_pages])
  rw [flatten_pages] at loaded
  have executed : s.execute (.smembers set) = .ok (ids.keys, s) := by
    rw [Server.execute, listed]
    rfl
  exact (Looks.send executed).bind loaded

end

section

variable {α : Type} (records : String → Option α) (ids : List String)

/-- The records of some ids, each with its id; an id without a record is passed over. -/
def recordsWithIds : List (String × α) :=
  ids.filterMap fun id => (records id).map (id, ·)

theorem mem_recordsWithIds {id : String} {a : α} :
    (id, a) ∈ recordsWithIds records ids ↔ id ∈ ids ∧ records id = some a := by
  simp [recordsWithIds]

theorem ids_recordsWithIds : (recordsWithIds records ids).map (·.1) = ids.filter fun id => (records id).isSome := by
  rw [recordsWithIds, List.map_filterMap, ← List.filterMap_eq_filter]
  congr 1
  funext id
  cases found : records id <;> simp [Option.guard, found]

theorem records_recordsWithIds : (recordsWithIds records ids).map (·.2) = ids.filterMap records := by
  rw [recordsWithIds, List.map_filterMap]
  congr 1
  funext id
  rw [Option.map_map]
  exact Option.map_id'

end

/-- A connection that is made with these settings leads to records laid out like this. -/
def Opens (settings : RedisSettings) (l : Layout) : Prop :=
  ∃ leadsToServer w, (World.run Traffic.answer (connect settings leadsToServer) w).1 = .ok l

theorem Opens.layout_eq {settings : RedisSettings} {l : Layout} (opens : Opens settings l) :
    l = ⟨settings.keyPrefix, settings.scanBatchSize.toNat⟩ := by
  obtain ⟨leadsToServer, w, opened⟩ := opens
  unfold connect at opened
  dsimp only at opened
  split at opened
  · cases opened
  split at opened
  · cases opened
  split at opened
  · cases opened
  rw [World.run_bind] at opened
  -- the server has answered by now, or refused to
  split at opened
  · exact (Except.ok.inj opened).symm
  · cases opened

/-- Each record whose id is in a set is loaded exactly once, in the order of the set, and an id without a record is
passed over. This is so for every configured size of a page, where zero counts as one: each page is asked for with one
command, there are as many pages as it takes to hold the ids, and none is empty. -/
theorem loadAll_page_by_page {α : Type} {d : Json.Decoder α} {s : Server} {set : String} {ids : Table String Unit}
    {keyOf : String → String} {records : String → Option α} (listed : s.set? set = .ok ids)
    (loads : ∀ id ∈ ids.keys, Loads d s (keyOf id) (records id)) :
    ∃ loaded : List (String × α), (loaded.map (·.1)).Nodup ∧ (loaded.map (·.1)).Sublist ids.keys ∧
      (∀ id a, (id, a) ∈ loaded ↔ id ∈ ids.keys ∧ records id = some a) ∧
      ∀ settings l, Opens settings l → ∃ paged : List (List String),
        Looks (loadAll l d set keyOf) s (.smembers set :: paged.map fun page => .mget (page.map keyOf))
          (.ok (loaded.map (·.2))) ∧
        paged.flatten = ids.keys ∧ paged.length = ids.size ⌈/⌉ max settings.scanBatchSize.toNat 1 ∧
        ∀ page ∈ paged, page ≠ [] ∧ page.length ≤ max settings.scanBatchSize.toNat 1 := by
  have named : ((recordsWithIds records ids.keys).map (·.1)).Sublist ids.keys := by
    rw [ids_recordsWithIds]
    exact List.filter_sublist
  refine ⟨recordsWithIds records ids.keys, named.nodup ids.nodup_keys, named, fun _ _ => mem_recordsWithIds _ _,
    fun settings l opens => ?_⟩
  obtain rfl := opens.layout_eq
  rw [records_recordsWithIds]
  refine ⟨pages settings.scanBatchSize.toNat ids.keys, loadAll_looks listed loads, flatten_pages _ _, ?_,
    fun _ => of_mem_pages⟩
  rw [length_pages, Table.keys, List.length_map, Table.size]

theorem loadAll_page_by_page_with_a_gap :
    let ids : Table String Unit := .ofList [("a", ()), ("b", ()), ("c", ())]
    let s : Server := .ofList [("p:ids", .set ids), ("p:a", .string "\"Ada\""), ("p:c", .string "\"Cleo\"")]
    let records : String → Option String := fun id => [("a", "Ada"), ("c", "Cleo")].lookup id
    s.set? "p:ids" = .ok ids ∧ (∀ id ∈ ids.keys, Loads Json.Decoder.string s ("p:" ++ id) (records id)) ∧
      Opens { scanBatchSize := 2 } ⟨"audience", 2⟩ ∧
      ∃ (loaded : List (String × String)) (paged : List (List String)),
        Looks (loadAll ⟨"audience", 2⟩ Json.Decoder.string "p:ids" ("p:" ++ ·)) s
          (.smembers "p:ids" :: paged.map fun page => .mget (page.map ("p:" ++ ·))) (.ok (loaded.map (·.2))) ∧
        paged.length = 2 ∧ ("a", "Ada") ∈ loaded ∧ ("c", "Cleo") ∈ loaded := by
  intro ids s records
  have listed : s.set? "p:ids" = .ok ids := by
    simp [s, Server.set?, Table.ofList, Table.get?_insert]
  have loads : ∀ id ∈ ids.keys, Loads Json.Decoder.string s ("p:" ++ id) (records id) := by
    have keys : ids.keys = ["a", "b", "c"] := by decide
    rw [keys]
    simp only [List.forall_mem_cons]
    refine ⟨⟨"\"Ada\"", ?_, ?_⟩, ?_, ⟨"\"Cleo\"", ?_, ?_⟩, List.forall_mem_nil _⟩
    · simp [s, Server.string?, Table.ofList, Table.get?_insert]
    · decide +kernel
    · change s.string? _ = _
      simp [s, Server.string?, Table.ofList, Table.get?_insert]
    · simp [s, Server.string?, Table.ofList, Table.get?_insert]
    · decide +kernel
  have opens : Opens { scanBatchSize := 2 } ⟨"audience", 2⟩ :=
    ⟨fun _ => true, .start .start (fun _ => .epoch) fun _ => default, rfl⟩
  obtain ⟨loaded, -, -, found, asked⟩ := loadAll_page_by_page listed loads
  obtain ⟨paged, looks, -, many, -⟩ := asked _ _ opens
  have ada : ("a", "Ada") ∈ loaded := (found _ _).2 (by decide)
  have cleo : ("c", "Cleo") ∈ loaded := (found _ _).2 (by decide)
  exact ⟨listed, loads, opens, loaded, paged, looks, many.trans (by decide), ada, cleo⟩

end CustomerSegments.Redis
