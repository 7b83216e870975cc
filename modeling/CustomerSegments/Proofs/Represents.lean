import CustomerSegments.Proofs.RecordText
import CustomerSegments.Proofs.Slots
import CustomerSegments.Store.Memory

namespace CustomerSegments

namespace Table

variable {μ ν : Type} {rows : Table String μ} {t : Table Uuid ν} {f : ν → μ} {id : Uuid}

/-- The rows of a table by identifiers, each under the text of its identifier. -/
structure ByText (rows : Table String μ) (t : Table Uuid ν) (f : ν → μ) : Prop where
  texts : ∀ {x v}, rows.get? x = some v → ∃ id : Uuid, x = id.text
  get?_text : ∀ id : Uuid, rows.get? id.text = (t.get? id).map f

namespace ByText

theorem empty : ByText .empty (.empty : Table Uuid ν) f :=
  ⟨nofun, fun _ => rfl⟩

theorem insert (byText : ByText rows t f) (id : Uuid) (value : ν) :
    ByText (rows.insert id.text (f value)) (t.insert id value) f := by
  constructor
  · intro x v found
    rw [get?_insert] at found
    split at found
    · next same => exact ⟨id, same.symm⟩
    · exact byText.texts found
  · intro other
    rw [get?_insert, get?_insert, byText.get?_text]
    by_cases same : id = other
    · rw [if_pos same, if_pos (congrArg Uuid.text same)]
      rfl
    · rw [if_neg same, if_neg fun e => same (Uuid.text_injective e)]

theorem erase (byText : ByText rows t f) (id : Uuid) : ByText (rows.erase id.text) (t.erase id) f := by
  constructor
  · intro x v found
    rw [get?_erase] at found
    split at found
    · cases found
    · exact byText.texts found
  · intro other
    rw [get?_erase, get?_erase, byText.get?_text]
    by_cases same : id = other
    · rw [if_pos same, if_pos (congrArg Uuid.text same)]
      rfl
    · rw [if_neg same, if_neg fun e => same (Uuid.text_injective e)]

/-- A value is replaced by one of the same row. -/
theorem replace {old value : ν} (byText : ByText rows t f) (live : t.get? id = some old) (same : f value = f old) :
    ByText rows (t.insert id value) f := by
  refine ⟨byText.texts, fun other => ?_⟩
  rw [byText.get?_text, get?_insert]
  split
  · next here => rw [← here, live, Option.map_some, Option.map_some, same]
  · rfl

theorem mem_entries_iff (byText : ByText rows t f) {x : String} {v : μ} :
    (x, v) ∈ rows.entries ↔ ∃ id value, (id, value) ∈ t.entries ∧ x = id.text ∧ v = f value := by
  rw [← get?_eq_some_iff]
  constructor
  · intro found
    obtain ⟨id, rfl⟩ := byText.texts found
    rw [byText.get?_text] at found
    obtain ⟨value, stored, rfl⟩ := Option.map_eq_some_iff.1 found
    exact ⟨id, value, get?_eq_some_iff.1 stored, rfl, rfl⟩
  · rintro ⟨id, value, stored, rfl, rfl⟩
    rw [byText.get?_text, get?_eq_some_iff.2 stored]
    rfl

/-- The rows are the entries, in some order. -/
theorem entries_perm (byText : ByText rows t f) :
    rows.entries.Perm (t.entries.map fun e => (e.1.text, f e.2)) := by
  have distinct : (t.entries.map fun e => (e.1.text, f e.2)).Nodup := by
    rw [List.Nodup, List.pairwise_map]
    refine t.sorted.imp fun {a b} before same => ?_
    have ids : a.1 = b.1 := Uuid.text_injective (Prod.mk.inj same).1
    rw [ids] at before
    exact Ordering.noConfusion (before.symm.trans Std.ReflOrd.compare_self)
  rw [List.perm_ext_iff_of_nodup (nodup_entries _) distinct]
  rintro ⟨x, v⟩
  rw [byText.mem_entries_iff, List.mem_map]
  constructor
  · rintro ⟨id, value, stored, rfl, rfl⟩
    exact ⟨(id, value), stored, rfl⟩
  · rintro ⟨⟨id, value⟩, stored, same⟩
    obtain ⟨name, rest⟩ := Prod.mk.inj same
    exact ⟨id, value, stored, name.symm, rest.symm⟩

theorem keys_perm (byText : ByText rows t f) : rows.keys.Perm (t.keys.map Uuid.text) := by
  have perm := byText.entries_perm.map Prod.fst
  rw [List.map_map] at perm
  rw [keys, keys, List.map_map]
  exact perm

end ByText

end Table

namespace Redis

variable {l : Layout} {s s' : Server} {changed : List Slot}

/-- The text of an audience size. -/
def sizeText (g : Segment) : String :=
  String.ofList (Decimal.ofInt g.audienceSize.toInt)

/-- A stored segment is one that is known, apart from the audience size, which is kept elsewhere, and
the time of the last change. -/
def RecordOf : Option Segment → Option Segment → Prop
  | none, none => True
  | some r, some g => r.toJson.Storable ∧ g = { r with audienceSize := g.audienceSize, updatedAt := g.updatedAt }
  | _, _ => False

/-- The customers of a server. -/
structure HoldsCustomers (l : Layout) (s : Server) (t : Table Uuid Customer) : Prop where
  ids : ∃ ids, s.set? (l.key .customers) = .ok ids ∧ ids.ByText t fun _ => ()
  record : ∀ id, s.string? (l.key (.customer id)) = .ok ((t.get? id).map fun c => c.text)
  sound : ∀ {id c}, t.get? id = some c → c.id = id ∧ c.toJson.Storable

/-- The segments of a server, with the index of their names. -/
structure HoldsSegments (l : Layout) (s : Server) (t : Table Uuid Segment) (names : Table String Uuid) : Prop where
  ids : ∃ ids, s.set? (l.key .segments) = .ok ids ∧ ids.ByText t fun _ => ()
  record : ∀ id, ∃ r, s.string? (l.key (.segment id)) = .ok (r.map fun g => g.text) ∧ RecordOf r (t.get? id)
  names : s.hash? (l.key .names) = .ok (names.map Uuid.text)
  sizes : ∃ rows, s.hash? (l.key .audience) = .ok rows ∧ rows.ByText t sizeText
  keyed : ∀ {id g}, t.get? id = some g → g.id = id

/-- The keys of a server hold what a store keeps in memory. -/
structure Represents (l : Layout) (s : Server) (m : Memory) : Prop where
  customers : HoldsCustomers l s m.customers
  segments : HoldsSegments l s m.segments m.names

theorem Represents.empty (l : Layout) : Represents l .empty .empty where
  customers := ⟨⟨.empty, rfl, .empty⟩, fun _ => rfl, nofun⟩
  segments := ⟨⟨.empty, rfl, .empty⟩, fun _ => ⟨none, rfl, trivial⟩, rfl, ⟨.empty, rfl, .empty⟩, nofun⟩

/-- A slot for customers. -/
def Slot.ofCustomers : Slot → Bool
  | customer _ | customers => true
  | segment _ | segments | names | audience => false

theorem HoldsCustomers.keep {t : Table Uuid Customer} (holds : HoldsCustomers l s t) (keeps : Server.Keeps l changed s s')
    (others : ∀ slot ∈ changed, slot.ofCustomers = false) : HoldsCustomers l s' t := by
  have kept {slot : Slot} (own : slot.ofCustomers = true) : slot ∉ changed := fun mem => by
    rw [others slot mem] at own
    cases own
  refine ⟨?_, fun id => ?_, holds.sound⟩
  · rw [keeps.set? (kept rfl)]
    exact holds.ids
  · rw [keeps.string? (kept rfl)]
    exact holds.record id

theorem HoldsSegments.keep {t : Table Uuid Segment} {names : Table String Uuid} (holds : HoldsSegments l s t names)
    (keeps : Server.Keeps l changed s s') (others : ∀ slot ∈ changed, slot.ofCustomers = true) :
    HoldsSegments l s' t names := by
  have kept {slot : Slot} (own : slot.ofCustomers = false) : slot ∉ changed := fun mem => by
    rw [others slot mem] at own
    cases own
  refine ⟨?_, fun id => ?_, ?_, ?_, holds.keyed⟩
  · rw [keeps.set? (kept rfl)]
    exact holds.ids
  · rw [keeps.string? (kept rfl)]
    exact holds.record id
  · rw [keeps.hash? (kept rfl)]
    exact holds.names
  · rw [keeps.hash? (kept rfl)]
    exact holds.sizes

namespace Represents

variable {m : Memory}

theorem withCustomers {t : Table Uuid Customer} (represents : Represents l s m) (held : HoldsCustomers l s' t)
    (keeps : Server.Keeps l changed s s') (own : ∀ slot ∈ changed, slot.ofCustomers = true) :
    Represents l s' { m with customers := t } :=
  ⟨held, represents.segments.keep keeps own⟩

theorem withSegments {t : Table Uuid Segment} {names : Table String Uuid} (represents : Represents l s m)
    (held : HoldsSegments l s' t names) (keeps : Server.Keeps l changed s s')
    (own : ∀ slot ∈ changed, slot.ofCustomers = false) : Represents l s' { m with segments := t, names := names } :=
  ⟨represents.customers.keep keeps own, held⟩

end Represents

end Redis

end CustomerSegments
