import CustomerSegments.Proofs.Listings
import CustomerSegments.Proofs.RedisCustomers
import CustomerSegments.Proofs.RefusedWrites
import Mathlib.Data.List.Nodup

namespace CustomerSegments.Redis

open Server

variable {l : Layout} {s : Server} {known : Segment → Prop} {strict : Prop} {α β : Type}

/-- A call that may do anything, with no other calls at the same time. -/
def alone : Conduct Recorded Unit where
  rely r r' := r' = r
  step _ _ _ _ := True
  rely_refl _ := rfl
  rely_trans first rest := rest.trans first
  idle _ _ := trivial

/-- An operation only reads from a server, and what it comes to, if it is not refused, has a property. -/
def Reads (s : Server) {α : Type} (op : Operation α) (post : α → Prop) : Prop :=
  ∀ r : Recorded, r.state = s →
    Attempt.Secures failing alone op (fun o _ r' => r'.state = s ∧ ∀ a, o = .ok a → post a) () r

namespace Reads

variable {post : α → Prop}

theorem settled {outcome : Except Error α} (ends : ∀ a, outcome = .ok a → post a) :
    Reads s (Attempt.settled outcome) post := by
  intro r here
  refine Attempt.secures_settled fun r' same => ?_
  rw [show r' = r from same]
  exact ⟨here, ends⟩

theorem pure {a : α} (ends : post a) : Reads s (Pure.pure a) post := by
  refine @settled s _ _ (.ok a) fun a' same => ?_
  cases same
  exact ends

theorem bind {op : Operation α} {next : α → Operation β} {mid : α → Prop} {post : β → Prop} (first : Reads s op mid)
    (rest : ∀ a, mid a → Reads s (next a) post) : Reads s (op >>= next) post := by
  intro r here
  refine Attempt.secures_bind ((first r here).mono fun o _ r' ⟨same, reached⟩ => ?_)
  cases o with
  | ok a => exact rest a (reached a rfl) r' same
  | error e =>
    intro r'' alone
    rw [show r'' = r' from alone]
    exact ⟨same, fun _ failed => by cases failed⟩

theorem mono {op : Operation α} {post' : α → Prop} (ran : Reads s op post) (weaker : ∀ a, post a → post' a) :
    Reads s op post' :=
  fun r here => (ran r here).mono fun _ _ _ ends => ⟨ends.1, fun a same => weaker a (ends.2 a same)⟩

theorem map {op : Operation α} {f : α → β} {post : β → Prop} (ran : Reads s op fun a => post (f a)) :
    Reads s (f <$> op) post := by
  rw [map_eq_pure_bind]
  exact ran.bind fun a reached => pure reached

theorem send {c : Command} {post : c.Result → Prop} (reads : ∀ r s', s.execute c = .ok (r, s') → s' = s ∧ post r) :
    Reads s (Redis.send c) post := by
  rintro r rfl
  refine secures_send_failing (fun same => same) (fun refusal => ⟨⟨rfl, fun _ failed => by cases failed⟩, trivial⟩) ?_
  intro result s' executed
  obtain ⟨rfl, reached⟩ := reads result s' executed
  refine ⟨⟨rfl, fun _ same => ?_⟩, trivial⟩
  cases same
  exact reached

theorem get (key : String) : Reads s (Redis.send (.get key)) fun _ => True :=
  send fun _ _ executed => ⟨(execute_get.1 executed).2, trivial⟩

theorem hget (key field : String) : Reads s (Redis.send (.hget key field)) fun _ => True := by
  refine send fun _ _ executed => ⟨?_, trivial⟩
  obtain ⟨_, _, _, rfl⟩ := execute_hget.1 executed
  rfl

theorem getSegment (id : Uuid) : Reads s (l.getSegment id) fun _ => True := by
  have record : Reads s (l.segmentRecord id) fun _ => True := by
    refine (get _).bind fun text _ => ?_
    cases text with
    | none => exact pure trivial
    | some text => exact map (settled fun _ _ => trivial)
  have size : Reads s (l.audienceSize id) fun _ => True := by
    refine (hget _ _).bind fun text _ => ?_
    cases text with
    | none => exact pure trivial
    | some text => exact settled fun _ _ => trivial
  refine record.bind fun found _ => ?_
  cases found with
  | none => exact pure trivial
  | some r => exact size.bind fun _ _ => pure trivial

theorem findSegmentByName (name : String) : Reads s (l.findSegmentByName name) fun _ => True := by
  refine (hget _ _).bind fun owner _ => ?_
  split
  · exact pure trivial
  · exact getSegment _

theorem ping : Reads s (Redis.send .ping) fun _ => True := by
  refine send fun _ _ executed => ⟨?_, trivial⟩
  cases executed
  rfl

end Reads

/-- The records of some ids have names that lead to these ids. -/
theorem leads_of_decoded {rows : Table String String} {ids : List String} {records : List Segment}
    (leads : ∀ x ∈ ids, ∀ text r, s.string? (l.segmentKey x) = .ok (some text) → decode Segment.decoder text = .ok r →
      rows.get? r.name = some x)
    (decoded : (((ids.map l.segmentKey).map fun key => ((s.string? key).toOption).join).filterMap id).mapM
      (decode Segment.decoder) = .ok records) :
    ∃ owners : List String, owners.Sublist ids ∧ records.map (fun r => rows.get? r.name) = owners.map some := by
  induction ids generalizing records with
  | nil =>
    cases decoded
    exact ⟨[], .slnil, rfl⟩
  | cons x rest ih =>
    have others {records : List Segment} := @ih records fun x mem => leads x (List.mem_cons_of_mem _ mem)
    have first := leads x List.mem_cons_self
    rw [List.map_cons, List.map_cons] at decoded
    cases found : ((s.string? (l.segmentKey x)).toOption).join with
    | none =>
      rw [found, List.filterMap_cons_none rfl] at decoded
      obtain ⟨owners, sub, same⟩ := others decoded
      exact ⟨owners, sub.cons x, same⟩
    | some text =>
      rw [found, List.filterMap_cons_some (show id (some text) = some text from rfl), List.mapM_cons, bind_eq_ok] at decoded
      obtain ⟨r, read, rest⟩ := decoded
      obtain ⟨records', read', same⟩ := bind_eq_ok.1 rest
      cases same
      obtain ⟨owners, sub, same⟩ := others read'
      have stored : s.string? (l.segmentKey x) = .ok (some text) := by
        cases here : s.string? (l.segmentKey x) with
        | ok text' =>
          rw [here] at found
          exact congrArg _ found
        | error refusal =>
          rw [here] at found
          cases found
      refine ⟨x :: owners, sub.cons_cons x, ?_⟩
      rw [List.map_cons, List.map_cons, first text r stored read, same]

theorem Reads.loadPages {rows : Table String String} {pages : List (List String)}
    (leads : ∀ x ∈ pages.flatten, ∀ text r, s.string? (l.segmentKey x) = .ok (some text) →
      decode Segment.decoder text = .ok r → rows.get? r.name = some x) :
    Reads s (loadPages Segment.decoder (pages.map (·.map l.segmentKey))) fun records =>
      ∃ owners : List String, owners.Sublist pages.flatten ∧ records.map (fun r => rows.get? r.name) = owners.map some := by
  induction pages with
  | nil => exact .pure ⟨[], .slnil, rfl⟩
  | cons ids rest ih =>
    have first := fun x mem => leads x (List.mem_append_left rest.flatten mem)
    have others := ih fun x mem => leads x (List.mem_append_right ids mem)
    have texts : Reads s (Redis.send (.mget (ids.map l.segmentKey))) fun texts =>
        texts = (ids.map l.segmentKey).map fun key => ((s.string? key).toOption).join := by
      refine Reads.send fun texts s' executed => ?_
      cases executed
      exact ⟨rfl, rfl⟩
    refine texts.bind ?_
    rintro _ rfl
    refine (Reads.settled fun records decoded => leads_of_decoded first decoded).bind fun records decoded => ?_
    refine others.bind fun records' loaded => ?_
    obtain ⟨owners, sub, same⟩ := decoded
    obtain ⟨owners', sub', same'⟩ := loaded
    refine .pure ⟨owners ++ owners', ?_, ?_⟩
    · exact sub.append sub'
    · rw [List.map_append, List.map_append, same, same']

theorem contains_of_mem_keys {ν : Type} {t : Table String ν} {x : String} (mem : x ∈ t.keys) : t.contains x = true := by
  obtain ⟨⟨x, _⟩, there, rfl⟩ := List.mem_map.1 mem
  rw [Table.contains, Table.get?_eq_some_iff.2 there, Option.isSome_some]

/-- The name of a record that is stored soundly leads to its segment. -/
theorem led_of_sound {id : Uuid} {text : String} {r : Segment} (sound : (s.file l id).Sound known strict)
    (stored : s.string? (l.segmentKey id.text) = .ok (some text)) (read : decode Segment.decoder text = .ok r) :
    (s.nameRows l).get? r.name = some id.text := by
  have record : s.get? (l.key (.segment id)) = some (.string text) := string?_eq_ok_iff.1 stored
  cases sound with
  | absent gone _ => cases record.symm.trans gone
  | stored g brought kept named only =>
    cases record.symm.trans kept
    rw [decode] at read
    split at read
    · next decoded =>
      cases read
      rw [Segment.name_of_decodeText decoded]
      exact of_decide_eq_true named
    · cases read

/-- A listing of what is stored soundly shows no two segments of one name. -/
theorem Reads.listSegments (tidy : s.Tidy l) (sound : ∀ id, (s.file l id).Sound known strict) :
    Reads s l.listSegments fun listed => (listed.map (·.name)).Nodup := by
  obtain ⟨ids, members, texts⟩ := tidy.ids
  have keys : Reads s (Redis.send (.smembers l.segmentsKey)) fun listed => listed = ids.keys := by
    refine Reads.send fun listed s' executed => ?_
    rw [execute, show s.set? l.segmentsKey = .ok ids from members] at executed
    cases executed
    exact ⟨rfl, rfl⟩
  have leads : ∀ x ∈ (pages l.pageSize ids.keys).flatten, ∀ text r, s.string? (l.segmentKey x) = .ok (some text) →
      decode Segment.decoder text = .ok r → (s.nameRows l).get? r.name = some x := by
    intro x mem text r stored read
    rw [flatten_pages] at mem
    obtain ⟨id, rfl⟩ := texts x (contains_of_mem_keys mem)
    exact led_of_sound (sound id) stored read
  have distinct {records : List Segment} {owners : List String} (sub : owners.Sublist (pages l.pageSize ids.keys).flatten)
      (led : records.map (fun r => (s.nameRows l).get? r.name) = owners.map some) : (records.map (·.name)).Nodup := by
    have once : (owners.map some).Nodup := by
      rw [flatten_pages] at sub
      exact (sub.nodup ids.nodup_keys).map fun _ _ => Option.some.inj
    rw [← led, ← Function.comp_def, ← List.map_map] at once
    exact once.of_map
  have loaded : Reads s (loadAll l Segment.decoder l.segmentsKey l.segmentKey)
      fun records => (records.map (·.name)).Nodup := by
    refine keys.bind ?_
    rintro _ rfl
    refine (Reads.loadPages leads).mono ?_
    rintro records ⟨_, sub, led⟩
    exact distinct sub led
  have rows : Reads s (Redis.send (.hgetall l.audienceKey)) fun _ => True := by
    refine Reads.send fun rows s' executed => ⟨?_, trivial⟩
    obtain ⟨_, _, same⟩ := bind_eq_ok.1 executed
    cases same
    rfl
  refine loaded.bind fun records once => rows.bind fun rows _ => ?_
  refine (Reads.settled fun _ _ => trivial).bind fun sizes _ => .pure ?_
  refine ((Store.newestFirst_perm _ _).map _).nodup_iff.2 ?_
  rw [List.map_map]
  exact once

/-- A name that leads somewhere leads to a segment, if all is stored soundly and strictly. -/
theorem exists_settles_findSegmentByName {name owner : String} (tidy : s.Tidy l) (legible : s.Legible l)
    (sound : ∀ id, (s.file l id).Sound (·.toJson.Storable) True) (taken : (s.nameRows l).get? name = some owner) :
    ∃ found, found.name = name ∧ Settles (l.findSegmentByName name) s (.ok (some found)) s := by
  obtain ⟨rows, index, texts⟩ := tidy.names
  rw [nameRows_of_ok index] at taken
  obtain ⟨id, rfl⟩ := texts name owner taken
  have leads : (s.file l id).names name = true := by
    rw [file, nameRows_of_ok index]
    exact decide_eq_true taken
  cases sound id with
  | absent _ unnamed => cases (unnamed trivial name).symm.trans leads
  | stored g storable record _ only =>
    obtain ⟨n, held⟩ := legible id
    have stored : s.string? (l.key (.segment id)) = .ok (some g.text) := string?_eq_ok_iff.2 record
    have record : Settles (l.segmentRecord id) s (.ok (some g)) s :=
      fetch_settles (show Loads Segment.decoder s _ (some g) from ⟨_, stored, Segment.decodeText_text storable⟩)
    have whole : Settles (l.getSegment id) s (.ok (some { g with audienceSize := Int64.ofInt n })) s :=
      record.bind ((settles_audienceSize held).bind (.pure _))
    have owner := Settles.hget index name
    rw [taken] at owner
    refine ⟨{ g with audienceSize := Int64.ofInt n }, (only trivial name leads).symm, owner.bind ?_⟩
    rw [Option.bind_some, Uuid.ofText?_text]
    exact whole

/-- Rows of sizes that can be read are all read. -/
theorem exists_mapM_size {rows : List (String × String)} (read : ∀ e ∈ rows, ∃ n, size? e.2 = .ok n) :
    ∃ sizes : List (String × Int64),
      (rows.mapM fun (id, text) => do .ok (id, ← size? text) : Except Error _) = .ok sizes := by
  induction rows with
  | nil => exact ⟨[], rfl⟩
  | cons row rest ih =>
    obtain ⟨x, text⟩ := row
    obtain ⟨n, first⟩ := read (x, text) List.mem_cons_self
    obtain ⟨sizes, others⟩ := ih fun e mem => read e (List.mem_cons_of_mem _ mem)
    dsimp only at first
    refine ⟨(x, n) :: sizes, ?_⟩
    rw [List.mapM_cons, others]
    dsimp only
    rw [first]
    rfl

/-- A listing of what is stored soundly is answered if no command of it is refused. -/
theorem exists_settles_listSegments (tidy : s.Tidy l) (legible : s.Legible l)
    (sound : ∀ id, (s.file l id).Sound (·.toJson.Storable) strict) :
    ∃ listed, Settles l.listSegments s (.ok listed) s := by
  have loads (id : Uuid) : ∃ r, Loads Segment.decoder s (l.segmentKey id.text) r := by
    cases sound id with
    | absent gone _ => exact ⟨none, string?_eq_ok_iff.2 gone⟩
    | stored g storable record _ _ =>
      exact ⟨some g, g.text, string?_eq_ok_iff.2 record, Segment.decodeText_text storable⟩
  choose records loads using loads
  obtain ⟨ids, members, listed⟩ := tidy.ids
  have each : ∀ x ∈ ids.keys, Loads Segment.decoder s (l.segmentKey x) ((Uuid.ofText? x).bind records) := by
    intro x mem
    obtain ⟨id, rfl⟩ := listed x (contains_of_mem_keys mem)
    rw [Uuid.ofText?_text]
    exact loads id
  obtain ⟨rows, stored, sized⟩ := tidy.sizes
  obtain ⟨sizes, read⟩ : ∃ sizes : List (String × Int64),
      (rows.entries.mapM fun (id, text) => do .ok (id, ← size? text) : Except Error _) = .ok sizes := by
    refine exists_mapM_size fun (x, text) mem => ?_
    have there := Table.get?_eq_some_iff.2 mem
    obtain ⟨id, rfl⟩ := sized x (by rw [Table.contains, there, Option.isSome_some])
    obtain ⟨n, held⟩ := legible id
    rw [audienceSize?, show s.hash? l.audienceKey = .ok rows from stored] at held
    dsimp only at held
    rw [there] at held
    exact ⟨Int64.ofInt n, by rw [size?, show Decimal.int64? text.toList = some n from held]⟩
  have all : Settles (loadAll l Segment.decoder l.segmentsKey l.segmentKey) s _ s := loadAll_settles members each
  exact ⟨_, all.bind ((Settles.hgetall stored).bind ((Settles.settled read).bind (.pure _)))⟩

/-- An operation is not told of a duplicate. -/
def NoDuplicate (op : Operation α) : Prop :=
  ∀ r, Attempt.Secures failing alone op (fun o _ _ => ∀ name, o ≠ .error (.duplicateName name)) () r

theorem NoDuplicate.send (c : Command) : NoDuplicate (send c) := by
  refine fun r => secures_send_failing (fun same => same) (fun refusal => ⟨fun name => ?_, trivial⟩)
    fun result s executed => ⟨fun name => ?_, trivial⟩
  · exact fun same => by cases same
  · exact fun same => by cases same

theorem NoDuplicate.bind {op : Operation α} {next : α → Operation β} (first : NoDuplicate op)
    (rest : ∀ a, NoDuplicate (next a)) : NoDuplicate (op >>= next) := by
  refine fun r => Attempt.secures_bind ((first r).mono fun o _ r' other => ?_)
  cases o with
  | ok a => exact rest a r'
  | error e =>
    intro r'' _ name same
    cases same
    exact other name rfl

/-- An insertion is told of a duplicate if its name leads somewhere, and changes nothing then. -/
theorem insertSegment_duplicate (g : Segment) (r : Recorded) :
    Attempt.Secures failing alone (l.insertSegment g) (fun o _ r' => ∀ name, o = .error (.duplicateName name) →
      name = g.name ∧ r'.state = r.state ∧ ∃ owner, (r.state.nameRows l).get? name = some owner) () r := by
  refine Attempt.secures_bind (secures_send_failing (fun same => same) (fun _ => ⟨fun r' same name failed => ?_, trivial⟩)
    fun claimed s executed => ⟨?_, trivial⟩)
  · cases failed
  · obtain ⟨rows, stored, answer, after⟩ := execute_hsetnx.1 executed
    cases claimed with
    | true =>
      have written : NoDuplicate (do
          put (l.segmentKey g.id.text) g.text
          Redis.send (.sadd l.segmentsKey g.id.text)
          Redis.send (.hset l.audienceKey g.id.text (String.ofList (Decimal.ofInt g.audienceSize.toInt)))) :=
        (NoDuplicate.send _).bind fun _ => (NoDuplicate.send _).bind fun _ => .send _
      exact (written _).mono fun o _ r' other name same => absurd same (other name)
    | false =>
      refine Attempt.secures_throw fun r' same name failed => ?_
      cases failed
      have there : rows.contains g.name = true := by simpa using answer.symm
      rw [there, if_pos rfl] at after
      rw [show r' = _ from same, nameRows_of_ok stored]
      exact ⟨rfl, after, Option.isSome_iff_exists.1 there⟩

end CustomerSegments.Redis
