import CustomerSegments.Proofs.JsonPrefixes

namespace CustomerSegments.Json

theorem Source.Allows.of_enter {source inner : Source} {depth : Nat} (entered : source.enter = .ok inner)
    (allowed : inner.Allows depth) : source.Allows (depth + 1) := by
  cases source with
  | text room =>
    cases room with
    | zero => cases entered
    | succ room =>
      cases entered
      exact Nat.succ_le_succ allowed
  | value => trivial

theorem Source.allows_zero (source : Source) : source.Allows 0 := by
  cases source with
  | text room => exact Nat.zero_le room
  | value => trivial

theorem Source.Allows.max {source : Source} {a b : Nat} (first : source.Allows a) (second : source.Allows b) :
    source.Allows (Max.max a b) := by
  cases source with
  | text room => exact Nat.max_le.2 ⟨first, second⟩
  | value => trivial

/-- Members in their places are as well ordered, and no deeper, than the members that were given. -/
theorem ofMembers_sound {source : Source} {given : List (String × Json)} (ordered : MembersOrdered given)
    (allowed : source.Allows (depthOfMembers given)) :
    Ordered (.object (ofMembers given)) ∧ source.Allows (depthOfMembers (ofMembers given)) :=
  ⟨⟨inOrder_ofMembers given, membersOrdered fun _ mem => ordered.of_mem (mem_ofMembers mem)⟩,
    allowed.mono (depthOfMembers_le fun _ mem => depth_le_depthOfMembers (mem_ofMembers mem))⟩

namespace Decoder

mutual

/-- Whatever document is read is in order, and no deeper than its source allows. -/
theorem json_sound (r : Reading) {source : Source} {j : Json} (read : json source r = .ok j) :
    j.Ordered ∧ source.Allows j.depth := by
  match r with
  | .null | .bool b | .number (some n) | .string (some s) =>
    cases read
    exact ⟨trivial, source.allows_zero⟩
  | .number none | .string none | .broken => cases read
  | .array items closed =>
    cases entered : source.enter with
    | error problem =>
      rw [json, entered] at read
      cases read
    | ok inner =>
      cases values : jsonItems inner items with
      | error problem =>
        simp only [json, entered, bind, Except.bind, values] at read
        cases read
      | ok values' =>
        simp only [json, entered, bind, Except.bind, values] at read
        obtain ⟨ordered, allowed⟩ := jsonItems_sound items values
        cases closed <;> cases read
        exact ⟨ordered, allowed.of_enter entered⟩
  | .object members closed =>
    cases entered : source.enter with
    | error problem =>
      rw [json, entered] at read
      cases read
    | ok inner =>
      cases values : jsonMembers inner members with
      | error problem =>
        simp only [json, entered, bind, Except.bind, values] at read
        cases read
      | ok values' =>
        simp only [json, entered, bind, Except.bind, values] at read
        obtain ⟨ordered, allowed⟩ := jsonMembers_sound members values
        obtain ⟨ordered, allowed⟩ := ofMembers_sound ordered allowed
        cases closed <;> cases read
        exact ⟨ordered, allowed.of_enter entered⟩

theorem jsonItems_sound (items : List Reading) {source : Source} {values : List Json}
    (read : jsonItems source items = .ok values) : ItemsOrdered values ∧ source.Allows (depthOfItems values) := by
  match items with
  | [] =>
    cases read
    exact ⟨trivial, source.allows_zero⟩
  | x :: xs =>
    cases first : json source x with
    | error problem =>
      rw [jsonItems, first] at read
      cases read
    | ok value =>
      cases rest : jsonItems source xs with
      | error problem =>
        rw [jsonItems, first, rest] at read
        cases read
      | ok values' =>
        rw [jsonItems, first, rest] at read
        cases read
        obtain ⟨ordered, allowed⟩ := json_sound x first
        obtain ⟨othersOrdered, othersAllowed⟩ := jsonItems_sound xs rest
        exact ⟨⟨ordered, othersOrdered⟩, allowed.max othersAllowed⟩

theorem jsonMembers_sound (members : List (Option String × Reading)) {source : Source} {values : List (String × Json)}
    (read : jsonMembers source members = .ok values) :
    MembersOrdered values ∧ source.Allows (depthOfMembers values) := by
  match members with
  | [] =>
    cases read
    exact ⟨trivial, source.allows_zero⟩
  | (none, x) :: ms => cases read
  | (some name, x) :: ms =>
    cases first : json source x with
    | error problem =>
      rw [jsonMembers, first] at read
      cases read
    | ok value =>
      cases rest : jsonMembers source ms with
      | error problem =>
        rw [jsonMembers, first, rest] at read
        cases read
      | ok values' =>
        rw [jsonMembers, first, rest] at read
        cases read
        obtain ⟨ordered, allowed⟩ := json_sound x first
        obtain ⟨othersOrdered, othersAllowed⟩ := jsonMembers_sound ms rest
        exact ⟨⟨ordered, othersOrdered⟩, allowed.max othersAllowed⟩

end

/-- So are the members of an object that is read for them. -/
theorem members_sound {source : Source} {r : Reading} {read : List (String × Json)}
    (decoded : Decoder.members source r = .ok read) :
    Ordered (.object read) ∧ source.Allows (depth (.object read)) := by
  cases r with
  | object entries closed =>
    cases entered : source.enter with
    | error problem =>
      rw [Decoder.members, entered] at decoded
      cases decoded
    | ok inner =>
      cases values : jsonMembers inner entries with
      | error problem =>
        simp only [Decoder.members, entered, bind, Except.bind, values] at decoded
        cases decoded
      | ok values' =>
        simp only [Decoder.members, entered, bind, Except.bind, values] at decoded
        obtain ⟨ordered, allowed⟩ := jsonMembers_sound entries values
        obtain ⟨ordered, allowed⟩ := ofMembers_sound ordered allowed
        cases closed <;> cases decoded
        exact ⟨ordered, allowed.of_enter entered⟩
  | _ => cases decoded

end Decoder

namespace Fields

variable {names : List String} {α : Type} {source : Source} {r : Reading} {a : α}

theorem enter_of_ofReading {fields : Fields} (read : ofReading names source r = .ok fields) :
    source.enter = .ok fields.source := by
  cases r with
  | object members closed | array items closed =>
    cases entered : source.enter with
    | error problem =>
      rw [ofReading, entered] at read
      cases read
    | ok inner =>
      rw [ofReading, entered] at read
      cases read
      rfl
  | _ => cases read

/-- A record is built of fields that stand one level deeper. -/
theorem exists_built {build : Fields → Located α} (read : Decoder.record names build source r = .ok a) :
    ∃ fields : Fields, source.enter = .ok fields.source ∧ build fields = .ok a := by
  cases given : ofReading names source r with
  | error problem =>
    rw [Decoder.record, given] at read
    cases read
  | ok fields =>
    rw [Decoder.record, given] at read
    exact ⟨fields, enter_of_ofReading given, eq_ok_of_settle read⟩

theorem defaulted_eq_ok {fields : Fields} {name : String} {d : Decoder α} {default : α}
    (read : fields.defaulted name d default = .ok a) : a = default ∨ ∃ value, d fields.source value = .ok a := by
  rw [defaulted] at read
  split at read
  · exact .inl (Located.ok.inj read).symm
  · split at read
    · next value ok => exact .inr ⟨_, ok.trans (congrArg Except.ok (Located.ok.inj read))⟩
    · cases read

end Fields

theorem Decoder.exists_of_decodeText {α : Type} {d : Decoder α} {text : String} {a : α}
    (decoded : d.decodeText text = .ok a) : ∃ r, d (.text maxDepth) r = .ok a := by
  cases value : d (.text maxDepth) (Document.ofText text).value with
  | error problem =>
    rw [decodeText, value] at decoded
    cases decoded
  | ok a' =>
    simp only [decodeText, bind, Except.bind, value] at decoded
    split at decoded
    · cases decoded
      exact ⟨_, value⟩
    · cases decoded

end CustomerSegments.Json

namespace CustomerSegments.Customer

open Json

/-- A customer whose numbers are read back as they are written. -/
structure Faithful (c : Customer) : Prop where
  totalSpend : (Number.double c.profile.totalSpend).ReadsBack
  attributes : (Json.object c.profile.attributes).NumbersReadBack

theorem attributes_of_read {f : Fields} {p : Profile} (read : Profile.read f = .ok p) :
    f.defaulted "attributes" .members [] = .ok p.attributes := by
  obtain ⟨_, _, withAttributes, _, rfl⟩ := Located.seq_eq_ok read
  obtain ⟨_, _, withTags, attributes, rfl⟩ := Located.seq_eq_ok withAttributes
  obtain ⟨_, _, withStatus, _, rfl⟩ := Located.seq_eq_ok withTags
  obtain ⟨_, _, withLocation, _, rfl⟩ := Located.seq_eq_ok withStatus
  obtain ⟨_, _, withCategory, _, rfl⟩ := Located.seq_eq_ok withLocation
  obtain ⟨_, _, withOrder, _, rfl⟩ := Located.seq_eq_ok withCategory
  obtain ⟨_, _, withVisit, _, rfl⟩ := Located.seq_eq_ok withOrder
  obtain ⟨_, _, withCount, _, rfl⟩ := Located.seq_eq_ok withVisit
  obtain ⟨_, _, withSpend, _, rfl⟩ := Located.seq_eq_ok withCount
  obtain ⟨_, _, withPhone, _, rfl⟩ := Located.seq_eq_ok withSpend
  obtain ⟨_, _, withEmail, _, rfl⟩ := Located.seq_eq_ok withPhone
  obtain ⟨_, _, withName, _, rfl⟩ := Located.seq_eq_ok withEmail
  obtain ⟨_, _, rfl⟩ := Located.map_eq_ok withName
  exact attributes

variable {c : Customer} {text : String}

/-- A customer who was read of a text, whatever its order and its depth, can be stored, if the numbers read back. -/
theorem storable_of_decodeText (decoded : decoder.decodeText text = .ok c) (faithful : c.Faithful) :
    c.toJson.Storable := by
  obtain ⟨r, read⟩ := Decoder.exists_of_decodeText decoded
  obtain ⟨fields, entered, built⟩ := Fields.exists_built read
  obtain ⟨_, _, withCreation, _, rfl⟩ := Located.seq_eq_ok built
  obtain ⟨_, _, withProfile, _, rfl⟩ := Located.seq_eq_ok withCreation
  obtain ⟨_, profile, withId, inner, rfl⟩ := Located.seq_eq_ok withProfile
  obtain ⟨_, _, rfl⟩ := Located.map_eq_ok withId
  have inside : fields.source = .text 126 := (Except.ok.inj entered).symm
  have sound : (Json.object profile.attributes).Ordered ∧ (Json.object profile.attributes).depth ≤ 126 := by
    rcases Fields.defaulted_eq_ok (attributes_of_read inner) with none | ⟨_, members⟩
    · rw [none]
      exact ⟨⟨.nil, trivial⟩, by decide⟩
    · rw [inside] at members
      exact Decoder.members_sound members
  exact storable_iff.2 ⟨faithful.totalSpend, faithful.attributes, sound.1, Nat.lt_succ_of_le sound.2⟩

end CustomerSegments.Customer
