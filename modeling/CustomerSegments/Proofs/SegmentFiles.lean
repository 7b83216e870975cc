import CustomerSegments.Proofs.CommandEffects
import CustomerSegments.Proofs.JsonPrefixes

namespace CustomerSegments.Redis

/-- What is stored for a segment: its record, whether it is listed, whether it has a size, and the names that
lead to it. -/
structure File where
  record : Option Entry
  listed : Bool
  sized : Bool
  names : String → Bool

/-- What is stored for a segment when no call is under way. -/
def File.of (g : Option Segment) : File where
  record := g.map fun g => .string g.text
  listed := g.isSome
  sized := g.isSome
  names name := g.any fun g => decide (name = g.name)

namespace Server

variable (l : Layout) (s : Server)

/-- The elements of the set of the ids of segments. -/
def listedIds : Table String Unit :=
  (s.set? (l.key .segments)).toOption.getD .empty

/-- The rows of the hash of audience sizes. -/
def sizeRows : Table String String :=
  (s.hash? (l.key .audience)).toOption.getD .empty

/-- The rows of the hash from names to ids. -/
def nameRows : Table String String :=
  (s.hash? (l.key .names)).toOption.getD .empty

/-- What a server has stored for a segment. -/
def file (id : Uuid) : File where
  record := s.get? (l.key (.segment id))
  listed := (s.listedIds l).contains id.text
  sized := (s.sizeRows l).contains id.text
  names name := decide ((s.nameRows l).get? name = some id.text)

/-- Only the texts of identifiers are listed, have sizes, or are led to by names. -/
structure Tidy : Prop where
  ids : ∃ ids, s.set? (l.key .segments) = .ok ids ∧ ∀ x, ids.contains x = true → ∃ id : Uuid, x = id.text
  sizes : ∃ rows, s.hash? (l.key .audience) = .ok rows ∧ ∀ x, rows.contains x = true → ∃ id : Uuid, x = id.text
  names : ∃ rows, s.hash? (l.key .names) = .ok rows ∧ ∀ name x, rows.get? name = some x → ∃ id : Uuid, x = id.text

end Server

open Server

/-- What a call on one segment may do: what is stored for the others stays. -/
structure Edit (l : Layout) (id : Uuid) (s s' : Server) : Prop where
  others : ∀ other, other ≠ id → s'.file l other = s.file l other
  tidy : s.Tidy l → s'.Tidy l

variable {l : Layout} {s s' s'' : Server} {id other : Uuid} {x value name : String}

theorem Edit.refl (l : Layout) (id : Uuid) (s : Server) : Edit l id s s :=
  ⟨fun _ _ => rfl, fun tidy => tidy⟩

section

variable {ids : Table String Unit} {rows : Table String String}

theorem listedIds_of_ok (stored : s.set? (l.key .segments) = .ok ids) : s.listedIds l = ids := by
  rw [listedIds, stored]
  rfl

theorem sizeRows_of_ok (stored : s.hash? (l.key .audience) = .ok rows) : s.sizeRows l = rows := by
  rw [sizeRows, stored]
  rfl

theorem nameRows_of_ok (stored : s.hash? (l.key .names) = .ok rows) : s.nameRows l = rows := by
  rw [nameRows, stored]
  rfl

end

/-- A command that writes one slot leaves the others as they were. -/
def Elsewhere (l : Layout) (slot : Slot) (s s' : Server) : Prop :=
  ∀ other, slot ≠ other → s'.get? (l.key other) = s.get? (l.key other)

namespace Elsewhere

theorem of_executed {c : Command} {r : c.Result} {slot : Slot} (executed : s.execute c = .ok (r, s'))
    (one : c.written = [l.key slot]) : Elsewhere l slot s s' := by
  refine fun other apart => execute_keeps executed ?_
  rw [one, List.mem_singleton]
  exact fun same => apart (Layout.key_injective same).symm

section

variable {slot : Slot} (elsewhere : Elsewhere l slot s s')

include elsewhere

theorem set?_segments (apart : slot ≠ .segments) : s'.set? (l.key .segments) = s.set? (l.key .segments) := by
  rw [set?, set?, elsewhere _ apart]

theorem hash?_audience (apart : slot ≠ .audience) : s'.hash? (l.key .audience) = s.hash? (l.key .audience) := by
  rw [hash?, hash?, elsewhere _ apart]

theorem hash?_names (apart : slot ≠ .names) : s'.hash? (l.key .names) = s.hash? (l.key .names) := by
  rw [hash?, hash?, elsewhere _ apart]

theorem listedIds_eq (apart : slot ≠ .segments) : s'.listedIds l = s.listedIds l := by
  rw [listedIds, listedIds, elsewhere.set?_segments apart]

theorem sizeRows_eq (apart : slot ≠ .audience) : s'.sizeRows l = s.sizeRows l := by
  rw [sizeRows, sizeRows, elsewhere.hash?_audience apart]

theorem nameRows_eq (apart : slot ≠ .names) : s'.nameRows l = s.nameRows l := by
  rw [nameRows, nameRows, elsewhere.hash?_names apart]

end

/-- The record of a segment is written. -/
theorem segment (elsewhere : Elsewhere l (.segment id) s s') :
    Edit l id s s' ∧ s'.file l id = { s.file l id with record := s'.get? (l.key (.segment id)) } := by
  have ids := elsewhere.listedIds_eq nofun
  have sizes := elsewhere.sizeRows_eq nofun
  have names := elsewhere.nameRows_eq nofun
  refine ⟨⟨fun other apart => ?_, fun tidy => ⟨?_, ?_, ?_⟩⟩, ?_⟩
  · rw [file, file, elsewhere _ fun same => apart (Slot.segment.inj same).symm, ids, sizes, names]
  · rw [elsewhere.set?_segments nofun]
    exact tidy.ids
  · rw [elsewhere.hash?_audience nofun]
    exact tidy.sizes
  · rw [elsewhere.hash?_names nofun]
    exact tidy.names
  · rw [file, file, ids, sizes, names]

/-- A segment is put into the set of ids or taken out. -/
theorem segments {ids ids' : Table String Unit} (elsewhere : Elsewhere l .segments s s')
    (before : s.set? (l.key .segments) = .ok ids) (after : s'.set? (l.key .segments) = .ok ids')
    (same : ∀ x, x ≠ id.text → ids'.contains x = ids.contains x) :
    Edit l id s s' ∧ s'.file l id = { s.file l id with listed := ids'.contains id.text } := by
  have record (other : Uuid) := elsewhere (.segment other) nofun
  have sizes := elsewhere.sizeRows_eq nofun
  have names := elsewhere.nameRows_eq nofun
  refine ⟨⟨fun other apart => ?_, fun tidy => ⟨⟨ids', after, fun x mem => ?_⟩, ?_, ?_⟩⟩, ?_⟩
  · rw [file, file, record, listedIds_of_ok after, listedIds_of_ok before,
      same _ fun texts => apart (Uuid.text_injective texts), sizes, names]
  · by_cases own : x = id.text
    · exact ⟨id, own⟩
    · obtain ⟨known, stored, texts⟩ := tidy.ids
      cases stored.symm.trans before
      exact texts x ((same x own).symm.trans mem)
  · rw [elsewhere.hash?_audience nofun]
    exact tidy.sizes
  · rw [elsewhere.hash?_names nofun]
    exact tidy.names
  · rw [file, file, record, listedIds_of_ok after, sizes, names]

/-- A segment gets a size or loses it. -/
theorem audience {rows rows' : Table String String} (elsewhere : Elsewhere l .audience s s')
    (before : s.hash? (l.key .audience) = .ok rows) (after : s'.hash? (l.key .audience) = .ok rows')
    (same : ∀ x, x ≠ id.text → rows'.contains x = rows.contains x) :
    Edit l id s s' ∧ s'.file l id = { s.file l id with sized := rows'.contains id.text } := by
  have record (other : Uuid) := elsewhere (.segment other) nofun
  have ids := elsewhere.listedIds_eq nofun
  have names := elsewhere.nameRows_eq nofun
  refine ⟨⟨fun other apart => ?_, fun tidy => ⟨?_, ⟨rows', after, fun x mem => ?_⟩, ?_⟩⟩, ?_⟩
  · rw [file, file, record, ids, sizeRows_of_ok after, sizeRows_of_ok before,
      same _ fun texts => apart (Uuid.text_injective texts), names]
  · rw [elsewhere.set?_segments nofun]
    exact tidy.ids
  · by_cases own : x = id.text
    · exact ⟨id, own⟩
    · obtain ⟨known, stored, texts⟩ := tidy.sizes
      cases stored.symm.trans before
      exact texts x ((same x own).symm.trans mem)
  · rw [elsewhere.hash?_names nofun]
    exact tidy.names
  · rw [file, file, record, ids, sizeRows_of_ok after, names]

/-- A name is claimed for a segment or released. -/
theorem names {rows rows' : Table String String} (elsewhere : Elsewhere l .names s s')
    (before : s.hash? (l.key .names) = .ok rows) (after : s'.hash? (l.key .names) = .ok rows')
    (same : ∀ name x, x ≠ id.text → (rows'.get? name = some x ↔ rows.get? name = some x)) :
    Edit l id s s' ∧
      s'.file l id = { s.file l id with names := fun name => decide (rows'.get? name = some id.text) } := by
  have record (other : Uuid) := elsewhere (.segment other) nofun
  have ids := elsewhere.listedIds_eq nofun
  have sizes := elsewhere.sizeRows_eq nofun
  refine ⟨⟨fun other apart => ?_, fun tidy => ⟨?_, ?_, ⟨rows', after, fun name x found => ?_⟩⟩⟩, ?_⟩
  · have led (name : String) := same name other.text fun texts => apart (Uuid.text_injective texts)
    simp only [file, record, ids, sizes, nameRows_of_ok after, nameRows_of_ok before, led]
  · rw [elsewhere.set?_segments nofun]
    exact tidy.ids
  · rw [elsewhere.hash?_audience nofun]
    exact tidy.sizes
  · by_cases own : x = id.text
    · exact ⟨id, own⟩
    · obtain ⟨known, stored, texts⟩ := tidy.names
      cases stored.symm.trans before
      exact texts name x ((same name x own).1 found)
  · rw [file, file, record, ids, sizes, nameRows_of_ok after]

end Elsewhere

theorem edit_set {r : Unit} (executed : s.execute (.set (l.key (.segment id)) value) = .ok (r, s')) :
    Edit l id s s' ∧ s'.file l id = { s.file l id with record := some (.string value) } := by
  have written := (Elsewhere.of_executed executed rfl).segment
  rwa [show s'.get? (l.key (.segment id)) = some (.string value) by
    rw [execute_set.1 executed, Table.get?_insert, if_pos rfl]] at written

theorem edit_del {r : Unit} (executed : s.execute (.del (l.key (.segment id))) = .ok (r, s')) :
    Edit l id s s' ∧ s'.file l id = { s.file l id with record := none } := by
  have written := (Elsewhere.of_executed executed rfl).segment
  rwa [show s'.get? (l.key (.segment id)) = none by
    rw [execute_del.1 executed, Table.get?_erase, if_pos rfl]] at written

section

variable {ν : Type} {key : String}

theorem contains_insert (t : Table String ν) (v : ν) :
    (t.insert key v).contains x = (decide (key = x) || t.contains x) := by
  rw [Table.contains, Table.get?_insert]
  by_cases same : key = x
  · simp [same]
  · simp [same, Table.contains]

theorem contains_erase (t : Table String ν) : (t.erase key).contains x = (!decide (key = x) && t.contains x) := by
  rw [Table.contains, Table.get?_erase]
  by_cases same : key = x
  · simp [same]
  · simp [same, Table.contains]

end

theorem edit_sadd {r : Unit} (executed : s.execute (.sadd (l.key .segments) id.text) = .ok (r, s')) :
    Edit l id s s' ∧ s'.file l id = { s.file l id with listed := true } := by
  have elsewhere := Elsewhere.of_executed executed rfl
  obtain ⟨members, stored, rfl⟩ := execute_sadd.1 executed
  have written := elsewhere.segments stored (set?_putSet _ _ _) fun x other => by
    rw [contains_insert, decide_eq_false (Ne.symm other), Bool.false_or]
  rwa [contains_insert, decide_eq_true rfl, Bool.true_or] at written

theorem edit_srem {r : Unit} (executed : s.execute (.srem (l.key .segments) id.text) = .ok (r, s')) :
    Edit l id s s' ∧ s'.file l id = { s.file l id with listed := false } := by
  have elsewhere := Elsewhere.of_executed executed rfl
  obtain ⟨members, stored, rfl⟩ := execute_srem.1 executed
  have written := elsewhere.segments stored (set?_putSet _ _ _) fun x other => by
    rw [contains_erase, decide_eq_false (Ne.symm other), Bool.not_false, Bool.true_and]
  rwa [contains_erase, decide_eq_true rfl, Bool.not_true, Bool.false_and] at written

theorem edit_hset {r : Unit} (executed : s.execute (.hset (l.key .audience) id.text value) = .ok (r, s')) :
    Edit l id s s' ∧ s'.file l id = { s.file l id with sized := true } := by
  have elsewhere := Elsewhere.of_executed executed rfl
  obtain ⟨rows, stored, rfl⟩ := execute_hset.1 executed
  have written := elsewhere.audience stored (hash?_putHash _ _ _) fun x other => by
    rw [contains_insert, decide_eq_false (Ne.symm other), Bool.false_or]
  rwa [contains_insert, decide_eq_true rfl, Bool.true_or] at written

theorem edit_hdel_size {r : Unit} (executed : s.execute (.hdel (l.key .audience) id.text) = .ok (r, s')) :
    Edit l id s s' ∧ s'.file l id = { s.file l id with sized := false } := by
  have elsewhere := Elsewhere.of_executed executed rfl
  obtain ⟨rows, stored, rfl⟩ := execute_hdel.1 executed
  have written := elsewhere.audience stored (hash?_putHash _ _ _) fun x other => by
    rw [contains_erase, decide_eq_false (Ne.symm other), Bool.not_false, Bool.true_and]
  rwa [contains_erase, decide_eq_true rfl, Bool.not_true, Bool.false_and] at written

/-- A name is claimed for a segment unless it leads somewhere, and stays as it is otherwise. -/
theorem edit_hsetnx {r : Bool} (executed : s.execute (.hsetnx (l.key .names) name id.text) = .ok (r, s')) :
    (r = true ∧ Edit l id s s' ∧
        s'.file l id = { s.file l id with names := fun n => decide (n = name) || (s.file l id).names n }) ∨
      r = false ∧ s' = s := by
  have elsewhere := Elsewhere.of_executed executed rfl
  obtain ⟨rows, stored, answer, after⟩ := execute_hsetnx.1 executed
  cases claimed : rows.get? name with
  | some owner =>
    rw [Table.contains, claimed] at answer after
    exact .inr ⟨answer, after⟩
  | none =>
    rw [Table.contains, claimed] at answer after
    simp only [Option.isSome_none, Bool.false_eq_true, if_false] at after
    subst after
    refine .inl ⟨answer, ?_⟩
    have same (n x : String) (other : x ≠ id.text) :
        (rows.insert name id.text).get? n = some x ↔ rows.get? n = some x := by
      rw [Table.get?_insert]
      split
      · next same =>
        rw [← same, claimed]
        simp [Ne.symm other]
      · rfl
    have written := elsewhere.names stored (hash?_putHash _ _ _) same
    have names : (fun n => decide ((rows.insert name id.text).get? n = some id.text)) =
        fun n => decide (n = name) || (s.file l id).names n := by
      funext n
      rw [Table.get?_insert, file, nameRows_of_ok stored]
      by_cases same : name = n
      · simp [same]
      · simp [same, Ne.symm same]
    rwa [names] at written

/-- A name that leads to a segment is released. -/
theorem edit_hdel_name {r : Unit} (executed : s.execute (.hdel (l.key .names) name) = .ok (r, s'))
    (led : (s.file l id).names name = true) :
    Edit l id s s' ∧
      s'.file l id = { s.file l id with names := fun n => !decide (n = name) && (s.file l id).names n } := by
  have elsewhere := Elsewhere.of_executed executed rfl
  obtain ⟨rows, stored, rfl⟩ := execute_hdel.1 executed
  have led : rows.get? name = some id.text := by
    rw [← nameRows_of_ok stored]
    exact of_decide_eq_true led
  have same (n x : String) (other : x ≠ id.text) : (rows.erase name).get? n = some x ↔ rows.get? n = some x := by
    rw [Table.get?_erase]
    split
    · next same =>
      rw [← same, led]
      simp [Ne.symm other]
    · rfl
  have written := elsewhere.names stored (hash?_putHash _ _ _) same
  have names : (fun n => decide ((rows.erase name).get? n = some id.text)) =
      fun n => !decide (n = name) && (s.file l id).names n := by
    funext n
    rw [Table.get?_erase, file, nameRows_of_ok stored]
    by_cases same : name = n
    · simp [same]
    · simp [same, Ne.symm same]
  rwa [names] at written

/-- A server stores exactly some segments, each of them whole: the record, the place in the set of ids, the size
and the name. -/
structure Coherent (l : Layout) (s : Server) (live : Uuid → Option Segment) : Prop where
  own : ∀ {id g}, live id = some g → g.id = id
  record : ∀ id, s.get? (l.key (.segment id)) = (live id).map fun g => .string g.text
  listed : ∃ ids, s.set? (l.key .segments) = .ok ids ∧
    ∀ x, ids.contains x = true ↔ ∃ id g, live id = some g ∧ x = id.text
  sized : ∃ rows, s.hash? (l.key .audience) = .ok rows ∧
    ∀ x, rows.contains x = true ↔ ∃ id g, live id = some g ∧ x = id.text
  named : ∃ rows, s.hash? (l.key .names) = .ok rows ∧
    ∀ name x, rows.get? name = some x ↔ ∃ id g, live id = some g ∧ g.name = name ∧ x = id.text

section

variable {live : Uuid → Option Segment}

theorem Coherent.tidy (coherent : Coherent l s live) : s.Tidy l where
  ids := by
    obtain ⟨ids, stored, mem⟩ := coherent.listed
    refine ⟨ids, stored, fun x there => ?_⟩
    obtain ⟨id, _, _, same⟩ := (mem x).1 there
    exact ⟨id, same⟩
  sizes := by
    obtain ⟨rows, stored, mem⟩ := coherent.sized
    refine ⟨rows, stored, fun x there => ?_⟩
    obtain ⟨id, _, _, same⟩ := (mem x).1 there
    exact ⟨id, same⟩
  names := by
    obtain ⟨rows, stored, leads⟩ := coherent.named
    refine ⟨rows, stored, fun name x there => ?_⟩
    obtain ⟨id, _, _, _, same⟩ := (leads name x).1 there
    exact ⟨id, same⟩

theorem exists_live_text_iff : (∃ id' g, live id' = some g ∧ id.text = id'.text) ↔ (live id).isSome = true := by
  rw [Option.isSome_iff_exists]
  constructor
  · rintro ⟨id', g, stored, texts⟩
    exact ⟨g, by rwa [Uuid.text_injective texts]⟩
  · rintro ⟨g, stored⟩
    exact ⟨id, g, stored, rfl⟩

theorem Coherent.file (coherent : Coherent l s live) (id : Uuid) : s.file l id = .of (live id) := by
  obtain ⟨ids, known, mem⟩ := coherent.listed
  obtain ⟨rows, stored, sized⟩ := coherent.sized
  obtain ⟨names, index, leads⟩ := coherent.named
  have listed : ids.contains id.text = (live id).isSome := Bool.eq_iff_iff.2 ((mem _).trans exists_live_text_iff)
  have size : rows.contains id.text = (live id).isSome := Bool.eq_iff_iff.2 ((sized _).trans exists_live_text_iff)
  have led (name : String) : names.get? name = some id.text ↔ (live id).any (fun g => decide (name = g.name)) = true := by
    rw [leads, Option.any_eq_true]
    constructor
    · rintro ⟨id', g, found, same, texts⟩
      exact ⟨g, by rwa [Uuid.text_injective texts], decide_eq_true same.symm⟩
    · rintro ⟨g, found, same⟩
      exact ⟨id, g, found, (of_decide_eq_true same).symm, rfl⟩
  simp only [Server.file, File.of, coherent.record, listedIds_of_ok known, sizeRows_of_ok stored, nameRows_of_ok index,
    listed, size, led, Bool.decide_eq_true]

/-- A server is coherent if what it has stored is so for every segment. -/
theorem Coherent.of_files (tidy : s.Tidy l) (own : ∀ {id g}, live id = some g → g.id = id)
    (files : ∀ id, s.file l id = .of (live id)) : Coherent l s live where
  own := own
  record id := congrArg File.record (files id)
  listed := by
    obtain ⟨ids, known, texts⟩ := tidy.ids
    have mem (id : Uuid) : ids.contains id.text = (live id).isSome := by
      rw [← listedIds_of_ok known]
      exact congrArg File.listed (files id)
    refine ⟨ids, known, fun x => ⟨fun there => ?_, ?_⟩⟩
    · obtain ⟨id, rfl⟩ := texts x there
      exact exists_live_text_iff.2 ((mem id).symm.trans there)
    · rintro ⟨id, g, stored, rfl⟩
      rw [mem, stored]
      rfl
  sized := by
    obtain ⟨rows, stored, texts⟩ := tidy.sizes
    have mem (id : Uuid) : rows.contains id.text = (live id).isSome := by
      rw [← sizeRows_of_ok stored]
      exact congrArg File.sized (files id)
    refine ⟨rows, stored, fun x => ⟨fun there => ?_, ?_⟩⟩
    · obtain ⟨id, rfl⟩ := texts x there
      exact exists_live_text_iff.2 ((mem id).symm.trans there)
    · rintro ⟨id, g, stored, rfl⟩
      rw [mem, stored]
      rfl
  named := by
    obtain ⟨rows, stored, texts⟩ := tidy.names
    have leads (id : Uuid) (name : String) :
        decide (rows.get? name = some id.text) = (live id).any fun g => decide (name = g.name) := by
      rw [← nameRows_of_ok stored]
      exact congrFun (congrArg File.names (files id)) name
    refine ⟨rows, stored, fun name x => ⟨fun there => ?_, ?_⟩⟩
    · obtain ⟨id, rfl⟩ := texts name x there
      obtain ⟨g, found, same⟩ := Option.any_eq_true _ _ |>.1 ((leads id name).symm.trans (decide_eq_true there))
      exact ⟨id, g, found, (of_decide_eq_true same).symm, rfl⟩
    · rintro ⟨id, g, found, rfl, rfl⟩
      have led := leads id g.name
      rw [found] at led
      exact of_decide_eq_true (led.trans (decide_eq_true rfl))

/-- A name leads to one segment. -/
theorem Coherent.name_unique {id id' : Uuid} {g g' : Segment} (coherent : Coherent l s live) (stored : live id = some g)
    (stored' : live id' = some g') (same : g.name = g'.name) : id = id' := by
  obtain ⟨rows, _, leads⟩ := coherent.named
  have first := (leads g.name id.text).2 ⟨id, g, stored, rfl, rfl⟩
  have second := (leads g'.name id'.text).2 ⟨id', g', stored', rfl, rfl⟩
  rw [same, second] at first
  exact (Uuid.text_injective (Option.some.inj first)).symm

end

end CustomerSegments.Redis
