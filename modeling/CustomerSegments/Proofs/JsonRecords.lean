import CustomerSegments.Proofs.JsonDecoding

namespace CustomerSegments.Json

section

variable {items : List Json} {members : List (String × Json)} {x : Json} {m : String × Json} {key : String}

theorem ItemsReadBack.of_mem (faithful : ItemsReadBack items) (mem : x ∈ items) : x.NumbersReadBack := by
  induction items with
  | nil => cases mem
  | cons y rest ih =>
    rcases List.mem_cons.1 mem with rfl | mem
    · exact faithful.1
    · exact ih faithful.2 mem

theorem ItemsOrdered.of_mem (ordered : ItemsOrdered items) (mem : x ∈ items) : x.Ordered := by
  induction items with
  | nil => cases mem
  | cons y rest ih =>
    rcases List.mem_cons.1 mem with rfl | mem
    · exact ordered.1
    · exact ih ordered.2 mem

theorem depth_le_depthOfItems (mem : x ∈ items) : x.depth ≤ depthOfItems items := by
  induction items with
  | nil => cases mem
  | cons y rest ih =>
    rw [depthOfItems]
    rcases List.mem_cons.1 mem with rfl | mem
    · omega
    · have := ih mem
      omega

theorem MembersOrdered.of_mem (ordered : MembersOrdered members) (mem : m ∈ members) : m.2.Ordered := by
  induction members with
  | nil => cases mem
  | cons a rest ih =>
    rcases List.mem_cons.1 mem with rfl | mem
    · exact ordered.1
    · exact ih ordered.2 mem

theorem depth_le_depthOfMembers (mem : m ∈ members) : m.2.depth ≤ depthOfMembers members := by
  induction members with
  | nil => cases mem
  | cons a rest ih =>
    rw [depthOfMembers]
    rcases List.mem_cons.1 mem with rfl | mem
    · omega
    · have := ih mem
      omega

theorem MembersReadBack.of_mem (faithful : MembersReadBack members) (mem : m ∈ members) : m.2.NumbersReadBack := by
  induction members with
  | nil => cases mem
  | cons a rest ih =>
    rcases List.mem_cons.1 mem with rfl | mem
    · exact faithful.1
    · exact ih faithful.2 mem

theorem mem_ofMembers_of_lookup (distinct : (members.map (·.1)).Nodup) (found : members.lookup key = some x) :
    (key, x) ∈ ofMembers members :=
  (ofMembers_perm distinct).mem_iff.2 (mem_of_lookup found)

theorem itemsReadBack (faithful : ∀ x ∈ items, x.NumbersReadBack) : ItemsReadBack items := by
  induction items with
  | nil => trivial
  | cons x rest ih =>
    exact ⟨faithful x List.mem_cons_self, ih fun y mem => faithful y (List.mem_cons_of_mem _ mem)⟩

theorem membersReadBack (faithful : ∀ m ∈ members, m.2.NumbersReadBack) : MembersReadBack members := by
  induction members with
  | nil => trivial
  | cons a rest ih =>
    exact ⟨faithful a List.mem_cons_self, ih fun m mem => faithful m (List.mem_cons_of_mem _ mem)⟩

theorem membersOrdered (ordered : ∀ m ∈ members, m.2.Ordered) : MembersOrdered members := by
  induction members with
  | nil => trivial
  | cons a rest ih =>
    exact ⟨ordered a List.mem_cons_self, ih fun m mem => ordered m (List.mem_cons_of_mem _ mem)⟩

theorem depthOfMembers_le {most : Nat} (shallow : ∀ m ∈ members, m.2.depth ≤ most) : depthOfMembers members ≤ most := by
  induction members with
  | nil => exact Nat.zero_le _
  | cons a rest ih =>
    have first := shallow a List.mem_cons_self
    have others := ih fun m mem => shallow m (List.mem_cons_of_mem _ mem)
    rw [depthOfMembers]
    omega

/-- A document that may stand one level deeper. -/
structure Nestable (j : Json) : Prop where
  numbers : j.NumbersReadBack
  ordered : j.Ordered
  shallow : j.depth < maxDepth

/-- The members of an object are nestable if the object is storable, and the other way round. -/
theorem storable_mk_iff (distinct : (members.map (·.1)).Nodup) :
    (mk members).Storable ↔ ∀ m ∈ members, m.2.Nestable := by
  constructor
  · intro storable m mem
    have inside := mem_ofMembers_of_lookup distinct (lookup_of_mem distinct mem)
    exact ⟨MembersReadBack.of_mem storable.numbers inside, MembersOrdered.of_mem storable.ordered.2 inside,
      Nat.lt_of_le_of_lt (depth_le_depthOfMembers inside) storable.shallow⟩
  · intro nestable
    refine ⟨membersReadBack fun m mem => (nestable m (mem_ofMembers mem)).numbers,
      ⟨inOrder_ofMembers members, membersOrdered fun m mem => (nestable m (mem_ofMembers mem)).ordered⟩, ?_⟩
    have shallow : depthOfMembers (ofMembers members) ≤ maxDepth - 1 :=
      depthOfMembers_le fun m mem => Nat.le_pred_of_lt (nestable m (mem_ofMembers mem)).shallow
    exact Nat.succ_le_succ shallow

theorem nestable_string (s : String) : (Json.string s).Nestable :=
  ⟨trivial, trivial, Nat.zero_lt_succ _⟩

theorem nestable_number {n : Number} (faithful : n.ReadsBack) : (Json.number n).Nestable :=
  ⟨faithful, trivial, Nat.zero_lt_succ _⟩

theorem nestable_ofOption {α : Type} {f : α → Json} (nestable : ∀ a, (f a).Nestable) (o : Option α) :
    (ofOption f o).Nestable := by
  cases o with
  | none => exact ⟨trivial, trivial, Nat.zero_lt_succ _⟩
  | some a => exact nestable a

theorem nestable_strings (l : List String) : (Json.array (l.map .string)).Nestable := by
  have flat : ItemsReadBack (l.map Json.string) ∧ ItemsOrdered (l.map Json.string) ∧
      depthOfItems (l.map Json.string) = 0 := by
    induction l with
    | nil => exact ⟨trivial, trivial, rfl⟩
    | cons s rest ih =>
      obtain ⟨numbers, ordered, depth⟩ := ih
      refine ⟨⟨trivial, numbers⟩, ⟨trivial, ordered⟩, ?_⟩
      rw [List.map_cons, depthOfItems, depth]
      rfl
  refine ⟨flat.1, flat.2.1, ?_⟩
  rw [Json.depth, flat.2.2]
  decide

theorem Nestable.storable {j : Json} (nestable : j.Nestable) : j.Storable :=
  ⟨nestable.numbers, nestable.ordered, Nat.le_of_lt nestable.shallow⟩

theorem Nestable.item (nestable : (array items).Nestable) (mem : x ∈ items) :
    x.Nestable ∧ x.depth < (array items).depth := by
  have deeper : x.depth < (array items).depth := Nat.lt_succ_of_le (depth_le_depthOfItems mem)
  exact ⟨⟨ItemsReadBack.of_mem nestable.numbers mem, ItemsOrdered.of_mem nestable.ordered mem,
    Nat.lt_trans deeper nestable.shallow⟩, deeper⟩

theorem depth_lt_of_lookup (distinct : (members.map (·.1)).Nodup) (found : members.lookup key = some x) :
    x.depth < (mk members).depth :=
  Nat.lt_succ_of_le (depth_le_depthOfMembers (mem_ofMembers_of_lookup distinct found))

end

/-- Fields that hold the members of a document, each in its place. -/
structure Fields.Holds (fields : Fields) (inner : Source) (members : List (String × Json)) : Prop where
  source : fields.source = inner
  found : ∀ key, (fields.find? key).map (·.2) = (members.lookup key).map Reading.ofJson

namespace Fields

variable {names : List String} {members : List (String × Json)} {inner : Source} {fields : Fields} {α : Type}

/-- Members of different known names are all kept, without a fault. -/
theorem ofMembers_of_distinct (place : Nat) (entries : List (String × Nat × Reading)) (faults : List (Nat × Problem))
    (known : ∀ m ∈ members, m.1 ∈ names) (distinct : (members.map (·.1)).Nodup)
    (new : ∀ m ∈ members, entries.lookup m.1 = none) :
    ∃ entries', ofMembers names place (Reading.ofMembers members) (entries, faults) = (entries', faults) ∧
      ∀ key, (entries'.lookup key).map (·.2) =
        ((members.lookup key).map Reading.ofJson).or ((entries.lookup key).map (·.2)) := by
  induction members generalizing place entries with
  | nil => exact ⟨entries, rfl, fun _ => rfl⟩
  | cons m rest ih =>
    obtain ⟨name, value⟩ := m
    obtain ⟨unlike, others⟩ := List.nodup_cons.1 distinct
    have absent : entries.any (·.1 == name) = false := by
      have none := new _ List.mem_cons_self
      rw [List.lookup_eq_none_iff] at none
      rw [List.any_eq_false]
      intro e mem same
      exact bne_iff_ne.1 (none e mem) (beq_iff_eq.1 same).symm
    have kept : ∀ m ∈ rest, ((name, place, Reading.ofJson value) :: entries).lookup m.1 = none := by
      intro m mem
      have apart : m.1 ≠ name := fun same => unlike (List.mem_map.2 ⟨m, mem, same⟩)
      rw [List.lookup_cons, beq_eq_false_iff_ne.2 apart]
      exact new m (List.mem_cons_of_mem _ mem)
    obtain ⟨entries', read, found⟩ := ih (place + 1) _ (fun m mem => known m (List.mem_cons_of_mem _ mem)) others kept
    refine ⟨entries', ?_, fun key => ?_⟩
    · have mem : name ∈ names := known _ List.mem_cons_self
      rw [← read, Reading.ofMembers, ofMembers, if_pos mem, absent]
      rfl
    · rw [found, lookup_cons_eq]
      by_cases same : key = name
      · rw [if_pos same, same, lookup_eq_none unlike, List.lookup_cons_self]
        rfl
      · rw [if_neg same, List.lookup_cons, beq_eq_false_iff_ne.2 same]

/-- The record of an object is read from its members, in whatever order they were given. -/
theorem ofReading_object {given : List (String × Json)} {source : Source} (entered : source.enter = .ok inner)
    (same : given.Perm members) (known : ∀ m ∈ members, m.1 ∈ names) (distinct : (members.map (·.1)).Nodup) :
    ∃ fields, ofReading names source (.ofJson (.object given)) = .ok fields ∧ fields.faults = [] ∧
      fields.Holds inner members := by
  obtain ⟨entries, read, found⟩ := ofMembers_of_distinct 0 [] [] (fun m mem => known m (same.mem_iff.1 mem))
    ((same.map (·.1)).nodup_iff.2 distinct) fun _ _ => rfl
  refine ⟨⟨inner, entries, [], (Reading.ofMembers given).length⟩, ?_, rfl, rfl, fun key => ?_⟩
  · rw [Reading.ofJson, ofReading, entered]
    dsimp only [bind, Except.bind]
    rw [read]
    rfl
  · rw [find?, found, lookup_perm same distinct]
    exact Option.or_none

theorem settle_of_ok {outcome : Located α} {a : α} (sound : fields.faults = []) (built : outcome = .ok a) :
    fields.settle outcome = .ok a := by
  rw [settle, sound, built]
  rfl

namespace Holds

variable {name : String} {d : Decoder α} {a default : α} {value : Json}

theorem exists_find?_eq (holds : fields.Holds inner members) (member : members.lookup name = some value) :
    ∃ place, fields.find? name = some (place, .ofJson value) := by
  have found := holds.found name
  rw [member] at found
  cases shape : fields.find? name with
  | none => rw [shape] at found; cases found
  | some entry =>
    rw [shape] at found
    obtain ⟨place, r⟩ := entry
    cases found
    exact ⟨place, rfl⟩

theorem required (holds : fields.Holds inner members) (member : members.lookup name = some value)
    (read : d inner (.ofJson value) = .ok a) : fields.required name d = .ok a := by
  obtain ⟨place, found⟩ := holds.exists_find?_eq member
  simp only [Fields.required, found, holds.source, read]

theorem defaulted (holds : fields.Holds inner members) (member : members.lookup name = some value)
    (read : d inner (.ofJson value) = .ok a) : fields.defaulted name d default = .ok a := by
  obtain ⟨place, found⟩ := holds.exists_find?_eq member
  simp only [Fields.defaulted, found, holds.source, read]

theorem defaulted_of_absent (holds : fields.Holds inner members) (absent : members.lookup name = none) :
    fields.defaulted name d default = .ok default := by
  have found := holds.found name
  rw [absent] at found
  simp only [Fields.defaulted, Option.map_eq_none_iff.1 found]

theorem optional {o : Option α} (holds : fields.Holds inner members) (member : members.lookup name = some value)
    (read : d.option inner (.ofJson value) = .ok o) : fields.optional name d = .ok o :=
  holds.defaulted member read

/-- A member that is left out if there is nothing to say. -/
theorem optional_of_lookup {o : Option α} {f : α → Json} (holds : fields.Holds inner members)
    (member : members.lookup name = o.map f) (other : ∀ a, Reading.ofJson (f a) ≠ .null)
    (read : ∀ a, o = some a → d inner (.ofJson (f a)) = .ok a) : fields.optional name d = .ok o := by
  cases o with
  | none => exact holds.defaulted_of_absent member
  | some a => exact holds.optional member (Decoder.option_ofJson (o := some a) other read)

end Holds

end Fields

namespace Decoder

/-- A record is read from the object of its members, in whatever order, if the parts are. -/
theorem record_object {names : List String} {given members : List (String × Json)} {source inner : Source} {α : Type}
    {build : Fields → Located α} {a : α} (entered : source.enter = .ok inner) (same : given.Perm members)
    (known : ∀ m ∈ members, m.1 ∈ names) (distinct : (members.map (·.1)).Nodup)
    (built : ∀ fields : Fields, fields.Holds inner members → build fields = .ok a) :
    record names build source (.ofJson (.object given)) = .ok a := by
  obtain ⟨fields, read, sound, holds⟩ := Fields.ofReading_object entered same known distinct
  rw [record, read]
  exact Fields.settle_of_ok sound (built fields holds)

/-- The members of an object come to the same order from any other one. -/
theorem members_object {given members : List (String × Json)} {source : Source} (same : given.Perm members)
    (ordered : Ordered (.object members)) (allowed : source.Allows (depth (.object members))) :
    Decoder.members source (.ofJson (.object given)) = .ok members := by
  obtain ⟨inner, entered, allowed⟩ := Source.Allows.enter allowed
  have inside : MembersOrdered given := membersOrdered fun m mem => ordered.2.of_mem (same.mem_iff.1 mem)
  have shallow : depthOfMembers given ≤ depthOfMembers members :=
    depthOfMembers_le fun m mem => depth_le_depthOfMembers (same.mem_iff.1 mem)
  rw [Reading.ofJson, Decoder.members, entered]
  dsimp only [bind, Except.bind]
  rw [jsonMembers_ofMembers given inside (allowed.mono shallow)]
  exact congrArg Except.ok (ofMembers_of_perm same ordered.1)

/-- What is read from a document is read from its text. -/
theorem decodeText_text {α : Type} {d : Decoder α} {j : Json} {a : α} (numbers : j.NumbersReadBack)
    (read : d (.text maxDepth) (.ofJson j) = .ok a) : d.decodeText j.text = .ok a := by
  rw [decodeText, Document.ofText_text numbers]
  dsimp only [bind, Except.bind]
  rw [read]
  rfl

end Decoder

end CustomerSegments.Json
