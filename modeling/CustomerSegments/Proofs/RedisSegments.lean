import CustomerSegments.Proofs.MemoryCalls
import CustomerSegments.Proofs.RedisCustomers

namespace CustomerSegments

/-- A segment without the time of its last change. -/
def Segment.undated (g : Segment) : Segment :=
  { g with updatedAt := g.createdAt }

namespace Redis

open Server (Keeps)

theorem counter?_sizeText (g : Segment) : Server.counter? (sizeText g) = some g.audienceSize.toInt := by
  have least := g.audienceSize.le_toInt
  have most := g.audienceSize.toInt_lt
  have read : Decimal.int64? (sizeText g).toList = some g.audienceSize.toInt := by
    rw [sizeText, String.toList_ofList]
    exact Decimal.int64?_ofInt (by omega) (by omega)
  have canonical : decide (String.ofList (Decimal.ofInt g.audienceSize.toInt) = sizeText g) = true := decide_eq_true rfl
  rw [Server.counter?, read, Option.filter_some, if_pos canonical]

theorem size?_sizeText (g : Segment) : size? (sizeText g) = .ok g.audienceSize := by
  have least := g.audienceSize.le_toInt
  have most := g.audienceSize.toInt_lt
  rw [size?, sizeText, String.toList_ofList, Decimal.int64?_ofInt (by omega) (by omega)]
  exact congrArg Except.ok (Int64.ofInt_toInt _)

/-- The stored segment with the size that is kept apart is the known one. -/
theorem RecordOf.undated {r g : Segment} (same : RecordOf (some r) (some g)) :
    ({ r with audienceSize := g.audienceSize } : Segment).undated = g.undated := by
  have same : g = { r with audienceSize := g.audienceSize, updatedAt := g.updatedAt } := same.2
  rw [same]
  rfl

namespace HoldsSegments

variable {l : Layout} {s s' : Server} {t : Table Uuid Segment} {names : Table String Uuid} {r g : Segment} {id : Uuid}
  {new : String}

theorem loads (holds : HoldsSegments l s t names) (id : Uuid) :
    ∃ r, Loads Segment.decoder s (l.segmentKey id.text) r ∧ RecordOf r (t.get? id) := by
  obtain ⟨r, stored, same⟩ := holds.record id
  refine ⟨r, ?_, same⟩
  cases r with
  | none => exact stored
  | some r =>
    cases live : t.get? id with
    | none =>
      rw [live] at same
      exact same.elim
    | some g =>
      rw [live] at same
      exact ⟨r.text, stored, Segment.decodeText_text same.1⟩

theorem segmentRecord_of_gone (holds : HoldsSegments l s t names) (gone : t.get? id = none) :
    Settles (l.segmentRecord id) s (.ok none) s := by
  obtain ⟨r, loads, same⟩ := holds.loads id
  rw [gone] at same
  cases r with
  | none => exact fetch_settles loads
  | some r => exact same.elim

theorem segmentRecord_of_live (holds : HoldsSegments l s t names) (live : t.get? id = some g) :
    ∃ r, Settles (l.segmentRecord id) s (.ok (some r)) s ∧ RecordOf (some r) (some g) := by
  obtain ⟨r, loads, same⟩ := holds.loads id
  rw [live] at same
  cases r with
  | none => exact same.elim
  | some r => exact ⟨r, fetch_settles loads, same⟩

theorem audienceSize (holds : HoldsSegments l s t names) (live : t.get? id = some g) :
    Settles (l.audienceSize id) s (.ok g.audienceSize) s := by
  obtain ⟨rows, stored, byText⟩ := holds.sizes
  have size := byText.get?_text id
  rw [live] at size
  have read := Settles.hget stored id.text
  rw [size] at read
  exact read.bind (.settled (size?_sizeText g))

theorem getSegment_of_gone (holds : HoldsSegments l s t names) (gone : t.get? id = none) :
    Settles (l.getSegment id) s (.ok none) s :=
  (holds.segmentRecord_of_gone gone).bind (.pure none)

theorem getSegment_of_live (holds : HoldsSegments l s t names) (live : t.get? id = some g) :
    ∃ r, Settles (l.getSegment id) s (.ok (some { r with audienceSize := g.audienceSize })) s ∧
      RecordOf (some r) (some g) := by
  obtain ⟨r, found, same⟩ := holds.segmentRecord_of_live live
  exact ⟨r, found.bind ((holds.audienceSize live).bind (.pure _)), same⟩

theorem getSegment (holds : HoldsSegments l s t names) (id : Uuid) :
    ∃ found, Settles (l.getSegment id) s (.ok found) s ∧ found.map Segment.undated = (t.get? id).map Segment.undated := by
  cases live : t.get? id with
  | none => exact ⟨none, holds.getSegment_of_gone live, rfl⟩
  | some g =>
    obtain ⟨r, found, same⟩ := holds.getSegment_of_live live
    exact ⟨_, found, congrArg some same.undated⟩

theorem findSegmentByName (holds : HoldsSegments l s t names) (name : String) :
    ∃ found, Settles (l.findSegmentByName name) s (.ok found) s ∧
      found.map Segment.undated = ((names.get? name).bind t.get?).map Segment.undated := by
  have owner := Settles.hget holds.names name
  rw [Table.get?_map] at owner
  cases named : names.get? name with
  | none =>
    rw [named] at owner
    exact ⟨none, owner.bind (.pure none), rfl⟩
  | some id =>
    rw [named] at owner
    obtain ⟨found, read, same⟩ := holds.getSegment id
    refine ⟨found, owner.bind ?_, same⟩
    rw [Option.map_some, Option.bind_some, Uuid.ofText?_text]
    exact read

section

variable {changed : List Slot}

theorem keyed_insert (holds : HoldsSegments l s t names) (own : g.id = id) {other : Uuid} {g' : Segment}
    (live : (t.insert id g).get? other = some g') : g'.id = other := by
  rw [Table.get?_insert] at live
  split at live
  · next same =>
    cases live
    exact own.trans same
  · exact holds.keyed live

theorem keyed_erase (holds : HoldsSegments l s t names) {other : Uuid} {g' : Segment}
    (live : (t.erase id).get? other = some g') : g'.id = other := by
  rw [Table.get?_erase] at live
  split at live
  · cases live
  · exact holds.keyed live

/-- The record of one segment is written. -/
theorem record_insert (holds : HoldsSegments l s t names) (keeps : Keeps l changed s s')
    (others : ∀ other, .segment other ∈ changed → other = id)
    (record : s'.string? (l.key (.segment id)) = .ok (some r.text)) (same : RecordOf (some r) (some g))
    (other : Uuid) :
    ∃ r, s'.string? (l.key (.segment other)) = .ok (r.map fun g => g.text) ∧
      RecordOf r ((t.insert id g).get? other) := by
  rw [Table.get?_insert]
  by_cases here : id = other
  · subst here
    rw [if_pos rfl]
    exact ⟨some r, record, same⟩
  · rw [if_neg here, keeps.string? fun mem => here (others other mem).symm]
    exact holds.record other

theorem record_erase (holds : HoldsSegments l s t names) (keeps : Keeps l changed s s')
    (others : ∀ other, .segment other ∈ changed → other = id)
    (record : s'.string? (l.key (.segment id)) = .ok none) (other : Uuid) :
    ∃ r, s'.string? (l.key (.segment other)) = .ok (r.map fun g => g.text) ∧
      RecordOf r ((t.erase id).get? other) := by
  rw [Table.get?_erase]
  by_cases here : id = other
  · subst here
    rw [if_pos rfl]
    exact ⟨none, record, trivial⟩
  · rw [if_neg here, keeps.string? fun mem => here (others other mem).symm]
    exact holds.record other

end

theorem hsetnx_of_taken {owner : Uuid} (holds : HoldsSegments l s t names) (taken : names.get? new = some owner)
    (value : String) : Settles (send (.hsetnx l.namesKey new value)) s (.ok false) s := by
  have named : (names.map Uuid.text).get? new = some owner.text := by
    rw [Table.get?_map, taken, Option.map_some]
  exact .hsetnx_of_taken holds.names named

theorem hsetnx_of_free (holds : HoldsSegments l s t names) (free : names.get? new = none) (id : Uuid) :
    ∃ s', Settles (send (.hsetnx l.namesKey new id.text)) s (.ok true) s' ∧
      s'.hash? (l.key .names) = .ok ((names.insert new id).map Uuid.text) ∧ Keeps l [.names] s s' := by
  have unnamed : (names.map Uuid.text).get? new = none := by
    rw [Table.get?_map, free, Option.map_none]
  rw [Table.map_insert]
  exact Settles.hsetnx_of_free l .names holds.names unnamed id.text

theorem insertSegment_of_taken {owner : Uuid} (holds : HoldsSegments l s t names) (taken : names.get? g.name = some owner) :
    Settles (l.insertSegment g) s (.error (.duplicateName g.name)) s :=
  (holds.hsetnx_of_taken taken g.id.text).bind (.throw _)

theorem insertSegment_of_free (holds : HoldsSegments l s t names) (storable : g.toJson.Storable)
    (free : names.get? g.name = none) :
    ∃ s', Settles (l.insertSegment g) s (.ok ()) s' ∧
      HoldsSegments l s' (t.insert g.id g) (names.insert g.name g.id) ∧
      Keeps l [.names, .segment g.id, .segments, .audience] s s' := by
  obtain ⟨ids, known, idsText⟩ := holds.ids
  obtain ⟨rows, stored, rowsText⟩ := holds.sizes
  obtain ⟨s₁, claim, index, keeps₁⟩ := holds.hsetnx_of_free free g.id
  obtain ⟨s₂, set, record, keeps₂⟩ := Settles.set l (.segment g.id) s₁ g.text
  rw [← keeps₂.hash? (by simp)] at index
  rw [← keeps₁.set? (by simp), ← keeps₂.set? (by simp)] at known
  obtain ⟨s₃, add, members, keeps₃⟩ := Settles.sadd l .segments known g.id.text
  rw [← keeps₃.hash? (by simp)] at index
  rw [← keeps₃.string? (by simp)] at record
  rw [← keeps₁.hash? (by simp), ← keeps₂.hash? (by simp), ← keeps₃.hash? (by simp)] at stored
  obtain ⟨s₄, size, sizes, keeps₄⟩ := Settles.hset l .audience stored g.id.text (sizeText g)
  rw [← keeps₄.hash? (by simp)] at index
  rw [← keeps₄.string? (by simp)] at record
  rw [← keeps₄.set? (by simp)] at members
  have keeps := ((keeps₁.trans keeps₂).trans keeps₃).trans keeps₄
  have held : HoldsSegments l s₄ (t.insert g.id g) (names.insert g.name g.id) :=
    { ids := ⟨_, members, idsText.insert g.id g⟩
      record := holds.record_insert keeps (fun other mem => by simpa using mem) record ⟨storable, rfl⟩
      names := index
      sizes := ⟨_, sizes, rowsText.insert g.id g⟩
      keyed := holds.keyed_insert rfl }
  exact ⟨s₄, claim.bind (set.bind (add.bind size)), held, keeps⟩

theorem hget_names (holds : HoldsSegments l s t names) (name : String) :
    Settles (send (.hget l.namesKey name)) s (.ok ((names.get? name).map Uuid.text)) s := by
  have read := Settles.hget holds.names name
  rwa [Table.get?_map] at read

theorem rename_of_none {old : String} (holds : HoldsSegments l s t names)
    (refused : Memory.renamed? id old new names = none) :
    Settles (l.rename id old new) s (.error (.duplicateName new)) s := by
  obtain ⟨-, owner, taken, other⟩ := Memory.renamed?_eq_none_iff.1 refused
  have owned := holds.hget_names new
  rw [taken] at owned
  have foreign : (some owner).map Uuid.text ≠ some id.text := fun same =>
    other (Uuid.text_injective (Option.some.inj same))
  refine (holds.hsetnx_of_taken taken id.text).bind (owned.bind ?_)
  rw [if_pos foreign]
  exact .throw _

theorem rename_of_some {old : String} {names' : Table String Uuid} (holds : HoldsSegments l s t names) (differ : old ≠ new)
    (accepted : Memory.renamed? id old new names = some names') :
    ∃ s', Settles (l.rename id old new) s (.ok ()) s' ∧ s'.hash? (l.key .names) = .ok (names'.map Uuid.text) ∧
      Keeps l [.names, .names] s s' := by
  cases taken : names.get? new with
  | none =>
    rw [Memory.renamed?_of_free differ taken, Option.some.injEq] at accepted
    obtain ⟨s₁, claim, index, keeps₁⟩ := holds.hsetnx_of_free taken id
    obtain ⟨s₂, drop, dropped, keeps₂⟩ := Settles.hdel l .names index old
    rw [← Table.map_erase, accepted] at dropped
    exact ⟨s₂, claim.bind drop, dropped, keeps₁.trans keeps₂⟩
  | some owner =>
    -- The new name is one that the id was inserted under before.
    obtain rfl := Memory.owner_of_renamed differ accepted taken
    rw [Memory.renamed?_of_own differ taken, Option.some.injEq] at accepted
    have owned := holds.hget_names new
    rw [taken] at owned
    obtain ⟨s₁, drop, dropped, keeps⟩ := Settles.hdel l .names holds.names old
    rw [← Table.map_erase, accepted] at dropped
    have ours : ¬ (some owner).map Uuid.text ≠ some owner.text := not_not_intro rfl
    refine ⟨s₁, (holds.hsetnx_of_taken taken owner.text).bind (owned.bind ?_), dropped,
      fun slot kept => keeps slot fun mem => kept (List.mem_cons_of_mem _ mem)⟩
    rw [if_neg ours]
    exact drop

theorem updateSegment_of_gone (holds : HoldsSegments l s t names) (gone : t.get? g.id = none) :
    Settles (l.updateSegment g) s (.error (.missing .segment g.id)) s :=
  (holds.segmentRecord_of_gone gone).bind (.throw _)

theorem updateSegment_of_taken {old : Segment} (holds : HoldsSegments l s t names) (live : t.get? g.id = some old)
    (refused : Memory.renamed? g.id old.name g.name names = none) :
    Settles (l.updateSegment g) s (.error (.duplicateName g.name)) s := by
  obtain ⟨r, found, same⟩ := holds.segmentRecord_of_live live
  have named : r.name = old.name := by rw [same.2]
  have differ : r.name ≠ g.name := named ▸ (Memory.renamed?_eq_none_iff.1 refused).1
  rw [← named] at refused
  refine found.bind ?_
  dsimp only
  rw [if_pos differ]
  exact (holds.rename_of_none refused).bind_error

/-- The record of a live segment is replaced once the index holds the new name. -/
theorem put {old : Segment} {names' : Table String Uuid} (holds : HoldsSegments l s t names) (storable : g.toJson.Storable)
    (live : t.get? g.id = some old) (keeps : Keeps l [.names, .names] s s')
    (index : s'.hash? (l.key .names) = .ok (names'.map Uuid.text)) :
    ∃ s'', Settles (Redis.put (l.segmentKey g.id.text) g.text) s' (.ok ()) s'' ∧
      HoldsSegments l s'' (t.insert g.id { g with audienceSize := old.audienceSize }) names' ∧
      Keeps l [.names, .names, .segment g.id] s s'' := by
  obtain ⟨ids, known, idsText⟩ := holds.ids
  obtain ⟨rows, stored, rowsText⟩ := holds.sizes
  obtain ⟨s₁, set, record, keeps₁⟩ := Settles.set l (.segment g.id) s' g.text
  have keeps := keeps.trans keeps₁
  rw [← keeps₁.hash? (by simp)] at index
  rw [← keeps.set? (by simp)] at known
  rw [← keeps.hash? (by simp)] at stored
  have held : HoldsSegments l s₁ (t.insert g.id { g with audienceSize := old.audienceSize }) names' :=
    { ids := ⟨ids, known, idsText.replace live rfl⟩
      record := holds.record_insert keeps (fun other mem => by simpa using mem) record ⟨storable, rfl⟩
      names := index
      sizes := ⟨rows, stored, rowsText.replace live rfl⟩
      keyed := holds.keyed_insert (g := { g with audienceSize := old.audienceSize }) rfl }
  exact ⟨s₁, set, held, keeps⟩

theorem updateSegment_of_free {old : Segment} {names' : Table String Uuid} (holds : HoldsSegments l s t names)
    (storable : g.toJson.Storable) (live : t.get? g.id = some old)
    (accepted : Memory.renamed? g.id old.name g.name names = some names') :
    ∃ s', Settles (l.updateSegment g) s (.ok ()) s' ∧
      HoldsSegments l s' (t.insert g.id { g with audienceSize := old.audienceSize }) names' ∧
      Keeps l [.names, .names, .segment g.id] s s' := by
  obtain ⟨r, found, same⟩ := holds.segmentRecord_of_live live
  have named : r.name = old.name := by rw [same.2]
  by_cases differ : r.name ≠ g.name
  · rw [← named] at accepted
    obtain ⟨s₁, rename, index, keeps⟩ := holds.rename_of_some differ accepted
    obtain ⟨s₂, put, held, kept⟩ := holds.put storable live keeps index
    refine ⟨s₂, found.bind ?_, held, kept⟩
    dsimp only
    rw [if_pos differ]
    exact rename.bind put
  · have kept : old.name = g.name := named ▸ Decidable.not_not.1 differ
    rw [Memory.renamed?, if_pos kept, Option.some.injEq] at accepted
    rw [← accepted]
    obtain ⟨s₁, put, held, kept⟩ := holds.put storable live (fun _ _ => rfl) holds.names
    refine ⟨s₁, found.bind ?_, held, kept⟩
    dsimp only
    rw [if_neg differ]
    exact put

theorem deleteSegment_of_gone (holds : HoldsSegments l s t names) (gone : t.get? id = none) :
    Settles (l.deleteSegment id) s (.ok none) s :=
  (holds.getSegment_of_gone gone).bind (.pure none)

theorem deleteSegment_of_live (holds : HoldsSegments l s t names) (live : t.get? id = some g) :
    ∃ found s', Settles (l.deleteSegment id) s (.ok (some found)) s' ∧ found.undated = g.undated ∧
      HoldsSegments l s' (t.erase id) (names.erase g.name) ∧
      Keeps l [.segment id, .segments, .names, .audience] s s' := by
  obtain ⟨ids, known, idsText⟩ := holds.ids
  obtain ⟨rows, stored, rowsText⟩ := holds.sizes
  obtain ⟨r, found, same⟩ := holds.getSegment_of_live live
  have named : r.name = g.name := by rw [same.2]
  obtain ⟨s₁, del, record, keeps₁⟩ := Settles.del l (.segment id) s
  rw [← keeps₁.set? (by simp)] at known
  obtain ⟨s₂, rem, members, keeps₂⟩ := Settles.srem l .segments known id.text
  rw [← keeps₂.string? (by simp)] at record
  have index := holds.names
  rw [← keeps₁.hash? (by simp), ← keeps₂.hash? (by simp)] at index
  obtain ⟨s₃, drop, dropped, keeps₃⟩ := Settles.hdel l .names index r.name
  rw [named, ← Table.map_erase] at dropped
  rw [← keeps₃.string? (by simp)] at record
  rw [← keeps₃.set? (by simp)] at members
  rw [← keeps₁.hash? (by simp), ← keeps₂.hash? (by simp), ← keeps₃.hash? (by simp)] at stored
  obtain ⟨s₄, size, sizes, keeps₄⟩ := Settles.hdel l .audience stored id.text
  rw [← keeps₄.hash? (by simp)] at dropped
  rw [← keeps₄.string? (by simp)] at record
  rw [← keeps₄.set? (by simp)] at members
  have keeps := ((keeps₁.trans keeps₂).trans keeps₃).trans keeps₄
  have held : HoldsSegments l s₄ (t.erase id) (names.erase g.name) :=
    { ids := ⟨_, members, idsText.erase id⟩
      record := holds.record_erase keeps (fun other mem => by simpa using mem) record
      names := dropped
      sizes := ⟨_, sizes, rowsText.erase id⟩
      keyed := holds.keyed_erase }
  exact ⟨_, s₄, found.bind (del.bind (rem.bind (drop.bind (size.bind (.pure _))))), same.undated, held, keeps⟩

section

variable {ids : Table String Unit}

theorem contains_of_live (idsText : ids.ByText t fun _ => ()) (live : t.get? id = some g) : ids.contains id.text = true := by
  rw [Table.contains, idsText.get?_text, live]
  rfl

theorem contains_of_gone (idsText : ids.ByText t fun _ => ()) (gone : t.get? id = none) : ids.contains id.text = false := by
  rw [Table.contains, idsText.get?_text, gone]
  rfl

end

/-- The audience size of a live segment is written. -/
theorem resize {rows : Table String String} {g' : Segment} (holds : HoldsSegments l s t names) (live : t.get? id = some g)
    (same : g' = { g with audienceSize := g'.audienceSize, updatedAt := g'.updatedAt })
    (rowsText : rows.ByText t sizeText) (keeps : Keeps l [.audience] s s')
    (sizes : s'.hash? (l.key .audience) = .ok (rows.insert id.text (sizeText g'))) :
    HoldsSegments l s' (t.insert id g') names := by
  obtain ⟨ids, known, idsText⟩ := holds.ids
  have index := holds.names
  rw [← keeps.set? (by simp)] at known
  rw [← keeps.hash? (by simp)] at index
  refine ⟨⟨ids, known, idsText.replace live rfl⟩, fun other => ?_, index, ⟨_, sizes, rowsText.insert id g'⟩,
    holds.keyed_insert ?_⟩
  · rw [keeps.string? (by simp), Table.get?_insert]
    obtain ⟨r, record, kept⟩ := holds.record other
    refine ⟨r, record, ?_⟩
    by_cases here : id = other
    · subst here
      rw [live] at kept
      rw [if_pos rfl]
      cases r with
      | none => exact kept.elim
      | some r =>
        refine ⟨kept.1, ?_⟩
        rw [same, kept.2]
    · rw [if_neg here]
      exact kept
  · have own : g'.id = g.id := by rw [same]
    exact own.trans (holds.keyed live)

theorem setAudienceSize_of_gone (holds : HoldsSegments l s t names) (gone : t.get? id = none) (size : Int64) :
    Settles (l.setAudienceSize id size) s (.error (.missing .segment id)) s := by
  obtain ⟨ids, known, idsText⟩ := holds.ids
  exact (Settles.setIfLive_of_gone known (contains_of_gone idsText gone) _ _).bind (.throw _)

theorem setAudienceSize_of_live (holds : HoldsSegments l s t names) (live : t.get? id = some g) (size : Int64)
    (now : Instant) :
    ∃ s', Settles (l.setAudienceSize id size) s (.ok ()) s' ∧
      HoldsSegments l s' (t.insert id { g with audienceSize := size, updatedAt := now }) names ∧
      Keeps l [.audience] s s' := by
  obtain ⟨ids, known, idsText⟩ := holds.ids
  obtain ⟨rows, stored, rowsText⟩ := holds.sizes
  obtain ⟨s₁, write, sizes, keeps⟩ :=
    Settles.setIfLive l .audience known (contains_of_live idsText live) stored size.toInt
  exact ⟨s₁, write.bind (.pure ()), holds.resize live rfl rowsText keeps sizes, keeps⟩

theorem incrementAudienceSize_of_gone (holds : HoldsSegments l s t names) (gone : t.get? id = none) (delta : Int64) :
    Settles (l.incrementAudienceSize id delta) s (.error (.missing .segment id)) s := by
  obtain ⟨ids, known, idsText⟩ := holds.ids
  exact (Settles.incrementIfLive_of_gone known (contains_of_gone idsText gone) _ _).bind (.throw _)

/-- The new size is stored as it is, and answered as a script gives it back. -/
theorem incrementAudienceSize_of_live {delta : Int64} (holds : HoldsSegments l s t names) (live : t.get? id = some g)
    (fits : (g.audienceSize + delta).toInt = g.audienceSize.toInt + delta.toInt) :
    ∃ s', Settles (l.incrementAudienceSize id delta) s
        (.ok (Int64.ofInt (Server.throughScript (g.audienceSize + delta).toInt))) s' ∧
      HoldsSegments l s' (t.insert id { g with audienceSize := g.audienceSize + delta }) names ∧
      Keeps l [.audience] s s' := by
  have least := (g.audienceSize + delta).le_toInt
  have most := (g.audienceSize + delta).toInt_lt
  obtain ⟨ids, known, idsText⟩ := holds.ids
  obtain ⟨rows, stored, rowsText⟩ := holds.sizes
  have added : Server.added? rows id.text delta.toInt = .ok (g.audienceSize + delta).toInt := by
    have size := rowsText.get?_text id
    rw [live, Option.map_some] at size
    rw [Server.added?, size]
    dsimp only
    rw [counter?_sizeText]
    dsimp only [Bind.bind, Except.bind]
    rw [← fits, if_pos (by omega)]
  obtain ⟨s₁, write, sizes, keeps⟩ :=
    Settles.incrementIfLive l .audience known (contains_of_live idsText live) stored added
  exact ⟨s₁, write.bind (.pure _), holds.resize live rfl rowsText keeps sizes, keeps⟩

/-- An addition that leaves 64 bits is refused. -/
theorem incrementAudienceSize_of_overflow {delta : Int64} (holds : HoldsSegments l s t names) (live : t.get? id = some g)
    (overflows : ¬ (-9223372036854775808 ≤ g.audienceSize.toInt + delta.toInt ∧
      g.audienceSize.toInt + delta.toInt ≤ 9223372036854775807)) :
    Settles (l.incrementAudienceSize id delta) s (.error (.store (.refused .overflow))) s := by
  obtain ⟨ids, known, idsText⟩ := holds.ids
  obtain ⟨rows, stored, rowsText⟩ := holds.sizes
  have added : Server.added? rows id.text delta.toInt = .error .overflow := by
    have size := rowsText.get?_text id
    rw [live, Option.map_some] at size
    rw [Server.added?, size]
    dsimp only
    rw [counter?_sizeText]
    dsimp only [Bind.bind, Except.bind]
    rw [if_neg overflows]
  refine Settles.bind_error (Settles.send_refused ?_)
  rw [Server.execute, show s.set? l.segmentsKey = .ok ids from known]
  dsimp only [Bind.bind, Except.bind]
  rw [contains_of_live idsText live, if_pos rfl, show s.hash? l.audienceKey = .ok rows from stored]
  dsimp only [Bind.bind, Except.bind]
  rw [added]

end HoldsSegments

end Redis

end CustomerSegments
