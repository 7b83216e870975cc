import CustomerSegments.Customer
import CustomerSegments.Proofs.IdText
import CustomerSegments.Proofs.JsonRecords
import CustomerSegments.Proofs.NumberText
import CustomerSegments.Proofs.TimeText
import CustomerSegments.Segment

namespace CustomerSegments

open Json

variable {source : Source}

theorem string_ne_null (s : String) : Reading.ofJson (.string s) ≠ .null := by
  nofun

namespace Rule

theorem distinct_members (rule : Rule) : (rule.members.map (·.1)).Nodup := by
  unfold members
  cases rule.groupId <;> cases rule.connective <;> simp

theorem lookup_value (rule : Rule) : rule.members.lookup "value" = some rule.value := by
  simp [members, lookup_cons_eq]

theorem lookup_groupId (rule : Rule) : rule.members.lookup "groupId" = rule.groupId.map .string := by
  unfold members
  cases rule.groupId <;> cases rule.connective <;> simp [lookup_cons_eq]

theorem lookup_connective (rule : Rule) : rule.members.lookup "groupOperator" = rule.connective.map .string := by
  unfold members
  cases rule.groupId <;> cases rule.connective <;> simp [lookup_cons_eq]

/-- The value of a rule stands one level deeper than the rule. -/
theorem nestable_value {rule : Rule} (nestable : rule.toJson.Nestable) :
    rule.value.Nestable ∧ rule.value.depth < rule.toJson.depth := by
  have each := (storable_mk_iff rule.distinct_members).1 nestable.storable
  have member : ("value", rule.value) ∈ rule.members := mem_of_lookup rule.lookup_value
  exact ⟨each _ member, depth_lt_of_lookup rule.distinct_members rule.lookup_value⟩

theorem written_readBack {rule : Rule} (faithful : rule.value.NumbersReadBack) : rule.written.NumbersReadBack := by
  unfold written members
  cases rule.groupId <;> cases rule.connective <;> simp [NumbersReadBack, MembersReadBack, faithful]

/-- A rule is read from its members, in whatever order they stand. -/
theorem decoder_object {rule : Rule} {given : List (String × Json)} (same : given.Perm rule.members)
    (ordered : rule.value.Ordered) (allowed : source.Allows (rule.value.depth + 1)) :
    decoder source (.ofJson (.object given)) = .ok rule := by
  obtain ⟨inner, entered, inside⟩ := Source.Allows.enter allowed
  refine Decoder.record_object entered same ?_ rule.distinct_members fun fields holds => ?_
  · unfold members
    cases rule.groupId <;> cases rule.connective <;> simp
  · have value := Decoder.json_ofJson rule.value ordered inside
    have field : fields.defaulted "field" .string "" = .ok rule.field := holds.defaulted rfl rfl
    have operator : fields.defaulted "operator" .string "" = .ok rule.operator := holds.defaulted rfl rfl
    have value : fields.defaulted "value" Decoder.json .null = .ok rule.value := holds.defaulted rule.lookup_value value
    have groupId : fields.optional "groupId" .string = .ok rule.groupId :=
      holds.optional_of_lookup rule.lookup_groupId string_ne_null fun _ _ => rfl
    have connective : fields.optional "groupOperator" .string = .ok rule.connective :=
      holds.optional_of_lookup rule.lookup_connective string_ne_null fun _ _ => rfl
    rw [field, operator, value, groupId, connective]
    rfl

end Rule

theorem Status.decoder_ofJson (s : Status) : Status.decoder source (.ofJson s.toJson) = .ok s := by
  cases s <;> rfl

theorem Profile.count_ofJson (n : UInt64) : Profile.count source (.ofJson (.ofUInt64 n)) = .ok n := by
  have bound := n.toNat_lt
  have least : (0 : Int) ≤ n.toNat := Int.natCast_nonneg _
  have most : (n.toNat : Int) ≤ 18446744073709551615 := by omega
  have read : Decoder.integer 0 18446744073709551615 source (.ofJson (.ofUInt64 n)) = .ok (n.toNat : Int) :=
    Decoder.integer_ofJson least most
  rw [Profile.count, read]
  exact congrArg Except.ok (UInt64.ofNat_toNat (x := n))

theorem sizeDecoder_ofJson (n : Int64) : sizeDecoder source (.ofJson (.ofInt64 n)) = .ok n := by
  have least := n.le_toInt
  have most : n.toInt ≤ 9223372036854775807 := Int.le_of_lt_add_one n.toInt_lt
  have read : Decoder.integer (-9223372036854775808) 9223372036854775807 source (.ofJson (.ofInt64 n)) =
      .ok n.toInt := Decoder.integer_ofJson least most
  rw [sizeDecoder, read]
  exact congrArg Except.ok (Int64.ofInt_toInt n)

namespace Customer

theorem names_members (c : Customer) :
    c.members.map (·.1) = "id" :: Profile.memberNames ++ ["createdAt", "updatedAt"] := rfl

theorem distinct_members (c : Customer) : (c.members.map (·.1)).Nodup := by
  rw [names_members]
  decide

theorem known_members (c : Customer) :
    ∀ m ∈ c.members, m.1 ∈ "id" :: Profile.memberNames ++ ["createdAt", "updatedAt"] := by
  intro m mem
  rw [← names_members c]
  exact List.mem_map_of_mem mem

variable {inner : Source} {fields : Fields} {c : Customer} {attributes : List (String × Json)}

theorem mem_listing {m : String × Json} (mem : m ∈ (c.listing attributes).members) :
    m ∈ c.members ∨ m = ("attributes", .object attributes) := by
  simp only [listing, members, Profile.members, List.cons_append, List.nil_append, List.mem_cons] at mem ⊢
  grind

theorem profile_read (holds : fields.Holds inner (c.listing attributes).members) (room : inner.Allows 1)
    (attributes : Decoder.members inner (.ofJson (.object attributes)) = .ok c.profile.attributes) :
    Profile.read fields = .ok c.profile := by
  obtain ⟨deeper, entered, _⟩ := Source.Allows.enter room
  have text (o : Option String) : Decoder.option .string inner (.ofJson (.ofOption .string o)) = .ok o :=
    Decoder.option_ofJson string_ne_null fun _ _ => rfl
  have time (o : Option Instant) : Decoder.option Instant.decoder inner (.ofJson (.ofOption Instant.toJson o)) = .ok o :=
    Decoder.option_ofJson (fun t => string_ne_null t.text) fun t _ => t.decoder_ofJson
  have name : fields.required "name" .string = .ok c.profile.name := holds.required rfl rfl
  have email : fields.optional "email" .string = .ok c.profile.email := holds.optional rfl (text _)
  have phone : fields.optional "phone" .string = .ok c.profile.phone := holds.optional rfl (text _)
  have totalSpend : fields.defaulted "totalSpend" .double .zero = .ok c.profile.totalSpend :=
    holds.defaulted rfl (Decoder.double_ofJson _)
  have visitCount : fields.defaulted "visitCount" Profile.count 0 = .ok c.profile.visitCount :=
    holds.defaulted rfl (Profile.count_ofJson _)
  have lastVisit : fields.optional "lastVisit" Instant.decoder = .ok c.profile.lastVisit :=
    holds.optional rfl (time _)
  have lastOrderDate : fields.optional "lastOrderDate" Instant.decoder = .ok c.profile.lastOrderDate :=
    holds.optional rfl (time _)
  have preferredCategory : fields.optional "preferredCategory" .string = .ok c.profile.preferredCategory :=
    holds.optional rfl (text _)
  have location : fields.optional "location" .string = .ok c.profile.location := holds.optional rfl (text _)
  have status : fields.defaulted "status" Status.decoder .active = .ok c.profile.status :=
    holds.defaulted rfl (Status.decoder_ofJson _)
  have tags : fields.defaulted "tags" (.list .string) [] = .ok c.profile.tags :=
    holds.defaulted rfl (Decoder.list_ofJson entered fun _ _ => rfl)
  have attributes : fields.defaulted "attributes" .members [] = .ok c.profile.attributes :=
    holds.defaulted rfl attributes
  have segments : fields.defaulted "segments" IdSet.decoder .empty = .ok c.profile.segments :=
    holds.defaulted rfl (c.profile.segments.decoder_ofJson room)
  rw [Profile.read, name, email, phone, totalSpend, visitCount, lastVisit, lastOrderDate, preferredCategory, location,
    status, tags, attributes, segments]
  rfl

/-- A customer is read from its members, in whatever order they and the free-form ones stand. -/
theorem decoder_object {given : List (String × Json)} (same : given.Perm (c.listing attributes).members)
    (listed : attributes.Perm c.profile.attributes) (ordered : (Json.object c.profile.attributes).Ordered)
    (allowed : source.Allows ((Json.object c.profile.attributes).depth + 1)) :
    decoder source (.ofJson (.object given)) = .ok c := by
  obtain ⟨inner, entered, inside⟩ := Source.Allows.enter allowed
  have attributes := Decoder.members_object listed ordered inside
  refine Decoder.record_object entered same (c.listing _).known_members (c.listing _).distinct_members
    fun fields holds => ?_
  have room : inner.Allows 1 := inside.mono (Nat.le_add_left 1 _)
  have id : fields.required "id" Uuid.decoder = .ok c.id := holds.required rfl c.id.decoder_ofJson
  have createdAt : fields.required "createdAt" Instant.decoder = .ok c.createdAt :=
    holds.required rfl c.createdAt.decoder_ofJson
  have updatedAt : fields.required "updatedAt" Instant.decoder = .ok c.updatedAt :=
    holds.required rfl c.updatedAt.decoder_ofJson
  rw [id, profile_read holds room attributes, createdAt, updatedAt]
  rfl

/-- A customer is storable if the amount spent and the free-form members are. -/
theorem storable_iff : c.toJson.Storable ↔
    (Number.double c.profile.totalSpend).ReadsBack ∧ (Json.object c.profile.attributes).Nestable := by
  rw [toJson, storable_mk_iff c.distinct_members]
  constructor
  · intro nestable
    have spent : ("totalSpend", .ofDouble c.profile.totalSpend) ∈ c.members := by simp [members, Profile.members]
    have free : ("attributes", .object c.profile.attributes) ∈ c.members := by simp [members, Profile.members]
    exact ⟨(nestable _ spent).numbers, nestable _ free⟩
  · rintro ⟨spent, free⟩ m mem
    have segments := nestable_strings (c.profile.segments.toList.map Uuid.text)
    rw [List.map_map] at segments
    simp only [members, Profile.members, List.cons_append, List.nil_append, List.mem_cons, List.not_mem_nil,
      or_false] at mem
    rcases mem with rfl | rfl | rfl | rfl | rfl | rfl | rfl | rfl | rfl | rfl | rfl | rfl | rfl | rfl | rfl | rfl
    · exact nestable_string c.id.text
    · exact nestable_string c.profile.name
    · exact nestable_ofOption nestable_string _
    · exact nestable_ofOption nestable_string _
    · exact nestable_number spent
    · exact nestable_number (Number.readsBack_integer _)
    · exact nestable_ofOption (fun t : Instant => nestable_string t.text) _
    · exact nestable_ofOption (fun t : Instant => nestable_string t.text) _
    · exact nestable_ofOption nestable_string _
    · exact nestable_ofOption nestable_string _
    · exact nestable_string c.profile.status.name
    · exact nestable_strings c.profile.tags
    · exact free
    · exact segments
    · exact nestable_string c.createdAt.text
    · exact nestable_string c.updatedAt.text

/-- A customer stays storable when a segment is taken from it. -/
theorem storable_strip (storable : c.toJson.Storable) (segment : Uuid) (now : Instant) :
    (c.strip segment now).toJson.Storable := by
  rw [storable_iff] at storable ⊢
  unfold strip
  split
  · exact storable
  · exact storable

/-- A customer is read back from the text that is stored for it, in whatever order the text lists the
free-form members. -/
theorem decodeText_listing (storable : c.toJson.Storable) (listed : attributes.Perm c.profile.attributes) :
    decoder.decodeText (c.listing attributes).text = .ok c := by
  have each := (storable_mk_iff c.distinct_members).1 storable
  obtain ⟨-, free⟩ := storable_iff.1 storable
  have faithful : (Json.object attributes).NumbersReadBack :=
    membersReadBack fun m mem => MembersReadBack.of_mem free.numbers (listed.mem_iff.1 mem)
  have numbers : (Json.object (c.listing attributes).members).NumbersReadBack := by
    refine membersReadBack fun m mem => ?_
    rcases mem_listing mem with own | rfl
    · exact (each m own).numbers
    · exact faithful
  rw [text]
  exact Decoder.decodeText_text numbers (decoder_object (.refl _) listed free.ordered (Nat.succ_le_of_lt free.shallow))

theorem decodeText_text (storable : c.toJson.Storable) : decoder.decodeText c.text = .ok c :=
  decodeText_listing storable (.refl _)

end Customer

namespace Segment

variable {s : Segment} {rules : List Json}

theorem names_members (s : Segment) (rules : List Json) :
    (s.members rules).map (·.1) =
      ["id", "name", "description", "rules", "audienceSize", "isActive", "createdAt", "updatedAt", "createdBy"] := rfl

theorem distinct_members (s : Segment) (rules : List Json) : ((s.members rules).map (·.1)).Nodup := by
  rw [names_members]
  decide

theorem known_members (s : Segment) (rules : List Json) :
    ∀ m ∈ s.members rules, m.1 ∈
      ["id", "name", "description", "rules", "audienceSize", "isActive", "createdAt", "updatedAt", "createdBy"] := by
  intro m mem
  rw [← names_members s rules]
  exact List.mem_map_of_mem mem

/-- The members apart from the rules are numbers that are read back, and texts. -/
theorem nestable_members {m : String × Json} (mem : m ∈ s.members rules) :
    m = ("rules", .array rules) ∨ m.2.Nestable := by
  simp only [members, List.mem_cons, List.not_mem_nil, or_false] at mem
  rcases mem with rfl | rfl | rfl | rfl | rfl | rfl | rfl | rfl | rfl
  · exact .inr (nestable_string s.id.text)
  · exact .inr (nestable_string s.name)
  · exact .inr (nestable_ofOption nestable_string _)
  · exact .inl rfl
  · exact .inr (nestable_number (Number.readsBack_integer _))
  · exact .inr ⟨trivial, trivial, Nat.zero_lt_succ _⟩
  · exact .inr (nestable_string s.createdAt.text)
  · exact .inr (nestable_string s.updatedAt.text)
  · exact .inr (nestable_string s.createdBy)

/-- A segment is storable if its rules are. -/
theorem storable_iff : s.toJson.Storable ↔ (Json.array (s.rules.map Rule.toJson)).Nestable := by
  rw [toJson, storable_mk_iff (s.distinct_members _)]
  constructor
  · intro nestable
    have rules : ("rules", .array (s.rules.map Rule.toJson)) ∈ s.members (s.rules.map Rule.toJson) := by simp [members]
    exact nestable _ rules
  · intro rules m mem
    rcases nestable_members mem with rfl | nestable
    · exact rules
    · exact nestable

/-- A segment is read from its members, in whatever order they stand. -/
theorem decoder_object {given : List (String × Json)} (same : given.Perm (s.members (s.rules.map Rule.written)))
    {inner innermost : Source} (entered : source.enter = .ok inner) (entered' : inner.enter = .ok innermost)
    (each : ∀ rule ∈ s.rules, Rule.decoder innermost (.ofJson rule.written) = .ok rule) :
    decoder source (.ofJson (.object given)) = .ok s := by
  refine Decoder.record_object entered same (s.known_members _) (s.distinct_members _) fun fields holds => ?_
  have id : fields.required "id" Uuid.decoder = .ok s.id := holds.required rfl s.id.decoder_ofJson
  have name : fields.required "name" .string = .ok s.name := holds.required rfl rfl
  have description : fields.optional "description" .string = .ok s.description :=
    holds.optional rfl (Decoder.option_ofJson string_ne_null fun _ _ => rfl)
  have rules : fields.defaulted "rules" (.list Rule.decoder) [] = .ok s.rules :=
    holds.defaulted rfl (Decoder.list_ofJson entered' each)
  have audienceSize : fields.defaulted "audienceSize" sizeDecoder 0 = .ok s.audienceSize :=
    holds.defaulted rfl (sizeDecoder_ofJson _)
  have isActive : fields.defaulted "isActive" .bool true = .ok s.isActive := holds.defaulted rfl rfl
  have createdAt : fields.required "createdAt" Instant.decoder = .ok s.createdAt :=
    holds.required rfl s.createdAt.decoder_ofJson
  have updatedAt : fields.required "updatedAt" Instant.decoder = .ok s.updatedAt :=
    holds.required rfl s.updatedAt.decoder_ofJson
  have createdBy : fields.required "createdBy" .string = .ok s.createdBy := holds.required rfl rfl
  rw [id, name, description, rules, audienceSize, isActive, createdAt, updatedAt, createdBy]
  rfl

/-- A segment is read back from the text that is stored for it. -/
theorem decodeText_text (storable : s.toJson.Storable) : decoder.decodeText s.text = .ok s := by
  have nestable := storable_iff.1 storable
  -- Each rule as it is written is as deep as its document, and its value stands deeper.
  have value {rule : Rule} (mem : rule ∈ s.rules) : rule.value.Nestable ∧ rule.value.depth + 2 ≤ maxDepth - 1 := by
    obtain ⟨inside, deeper⟩ := nestable.item (List.mem_map_of_mem mem)
    obtain ⟨sound, deepest⟩ := Rule.nestable_value inside
    have shallow := nestable.shallow
    exact ⟨sound, by omega⟩
  have faithful : (Json.array (s.rules.map Rule.written)).NumbersReadBack := by
    refine itemsReadBack fun x mem => ?_
    obtain ⟨rule, own, rfl⟩ := List.mem_map.1 mem
    exact Rule.written_readBack (value own).1.numbers
  have numbers : (Json.object (s.members (s.rules.map Rule.written))).NumbersReadBack := by
    refine membersReadBack fun m mem => ?_
    rcases nestable_members mem with rfl | sound
    · exact faithful
    · exact sound.numbers
  rw [text]
  refine Decoder.decodeText_text numbers (decoder_object (.refl _) rfl rfl fun rule mem => ?_)
  obtain ⟨sound, shallow⟩ := value mem
  exact Rule.decoder_object (.refl _) sound.ordered (Nat.le_of_succ_le_succ shallow)

end Segment

end CustomerSegments
