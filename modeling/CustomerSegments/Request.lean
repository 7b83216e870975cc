import CustomerSegments.Customer
import CustomerSegments.Error
import CustomerSegments.Segment

namespace CustomerSegments

/-- The name of a record without blank characters around it; it may not be empty. -/
def validName (entity : Entity) (name : String) : Except Error String :=
  let trimmed := Text.trim name
  if trimmed = "" then .error (.validation (entity.name ++ " name is required")) else .ok trimmed

theorem validName_eq_ok_iff {entity : Entity} {raw name : String} :
    validName entity raw = .ok name ↔ name = Text.trim raw ∧ Text.trim raw ≠ "" := by
  unfold validName
  by_cases blank : Text.trim raw = "" <;> simp [blank, eq_comm]

theorem validName_eq_error_iff {entity : Entity} {raw : String} {e : Error} :
    validName entity raw = .error e ↔ e = .validation (entity.name ++ " name is required") ∧ Text.trim raw = "" := by
  unfold validName
  by_cases blank : Text.trim raw = "" <;> simp [blank, eq_comm]

/-- A rule list whose audience a client wants to know. -/
structure PreviewRequest where
  rules : List Rule

namespace PreviewRequest

def toJson (r : PreviewRequest) : Json :=
  .mk [("rules", .array (r.rules.map Rule.toJson))]

def decoder : Json.Decoder PreviewRequest :=
  .record ["rules"] fun f => PreviewRequest.mk <$> f.defaulted "rules" (.list Rule.decoder) []

end PreviewRequest

/-- The size of a rule list's audience. -/
structure PreviewResponse where
  audienceSize : UInt64

namespace PreviewResponse

def toJson (r : PreviewResponse) : Json :=
  .mk [("audienceSize", .ofUInt64 r.audienceSize)]

def decoder : Json.Decoder PreviewResponse :=
  .record ["audienceSize"] fun f => PreviewResponse.mk <$> f.required "audienceSize" Profile.count

end PreviewResponse

/-- What a client says of a new segment. -/
structure NewSegment where
  name : String
  description : Option String
  rules : List Rule
  isActive : Bool

namespace NewSegment

def toJson (r : NewSegment) : Json :=
  .mk [("name", .string r.name), ("description", .ofOption .string r.description),
    ("rules", .array (r.rules.map Rule.toJson)), ("isActive", .bool r.isActive)]

def decoder : Json.Decoder NewSegment :=
  .record ["name", "description", "rules", "isActive"] fun f =>
    NewSegment.mk <$> f.required "name" .string <*> f.optional "description" .string <*>
      f.defaulted "rules" (.list Rule.decoder) [] <*> f.defaulted "isActive" .bool true

end NewSegment

/-- The parts of a segment that a client replaces. Rules that are present, even the same ones, make
the audience be counted again. -/
structure SegmentPatch where
  name : Option String
  description : Option String
  rules : Option (List Rule)
  isActive : Option Bool

namespace SegmentPatch

def toJson (r : SegmentPatch) : Json :=
  .mk [("name", .ofOption .string r.name), ("description", .ofOption .string r.description),
    ("rules", .ofOption (fun rules => .array (rules.map Rule.toJson)) r.rules),
    ("isActive", .ofOption .bool r.isActive)]

def decoder : Json.Decoder SegmentPatch :=
  .record ["name", "description", "rules", "isActive"] fun f =>
    SegmentPatch.mk <$> f.optional "name" .string <*> f.optional "description" .string <*>
      f.optional "rules" (.list Rule.decoder) <*> f.optional "isActive" .bool

/-- Replaces the parts that are present, apart from the name. -/
def apply (patch : SegmentPatch) (s : Segment) : Segment :=
  { s with
    description := patch.description.or s.description
    rules := patch.rules.getD s.rules
    isActive := patch.isActive.getD s.isActive }

end SegmentPatch

/-- What a client says of a new customer. A record from elsewhere may bring the time of its
creation along. -/
structure NewCustomer where
  profile : Profile
  createdAt : Option Instant

namespace NewCustomer

def toJson (r : NewCustomer) : Json :=
  .mk (r.profile.members ++ [("createdAt", .ofOption Instant.toJson r.createdAt)])

def decoder : Json.Decoder NewCustomer :=
  .record (Profile.memberNames ++ ["createdAt"]) fun f =>
    NewCustomer.mk <$> Profile.read f <*> f.optional "createdAt" Instant.decoder

end NewCustomer

/-- The parts of a customer's profile that a client replaces. -/
structure CustomerPatch where
  name : Option String
  email : Option String
  phone : Option String
  totalSpend : Option Double
  visitCount : Option UInt64
  lastVisit : Option Instant
  lastOrderDate : Option Instant
  preferredCategory : Option String
  location : Option String
  status : Option Status
  tags : Option (List String)
  attributes : Option (List (String × Json))
  segments : Option IdSet

namespace CustomerPatch

def toJson (r : CustomerPatch) : Json :=
  .mk [("name", .ofOption .string r.name), ("email", .ofOption .string r.email),
    ("phone", .ofOption .string r.phone), ("totalSpend", .ofOption .ofDouble r.totalSpend),
    ("visitCount", .ofOption .ofUInt64 r.visitCount),
    ("lastVisit", .ofOption Instant.toJson r.lastVisit),
    ("lastOrderDate", .ofOption Instant.toJson r.lastOrderDate),
    ("preferredCategory", .ofOption .string r.preferredCategory),
    ("location", .ofOption .string r.location), ("status", .ofOption Status.toJson r.status),
    ("tags", .ofOption (fun tags => .array (tags.map .string)) r.tags),
    ("attributes", .ofOption .object r.attributes),
    ("segments", .ofOption IdSet.toJson r.segments)]

def decoder : Json.Decoder CustomerPatch :=
  .record Profile.memberNames fun f =>
    CustomerPatch.mk <$> f.optional "name" .string <*> f.optional "email" .string <*>
      f.optional "phone" .string <*> f.optional "totalSpend" .double <*>
      f.optional "visitCount" Profile.count <*> f.optional "lastVisit" Instant.decoder <*>
      f.optional "lastOrderDate" Instant.decoder <*> f.optional "preferredCategory" .string <*>
      f.optional "location" .string <*> f.optional "status" Status.decoder <*>
      f.optional "tags" (.list .string) <*> f.optional "attributes" .members <*>
      f.optional "segments" IdSet.decoder

/-- Replaces the parts that are present, apart from the name. -/
def apply (patch : CustomerPatch) (p : Profile) : Profile where
  name := p.name
  email := patch.email.or p.email
  phone := patch.phone.or p.phone
  totalSpend := patch.totalSpend.getD p.totalSpend
  visitCount := patch.visitCount.getD p.visitCount
  lastVisit := patch.lastVisit.or p.lastVisit
  lastOrderDate := patch.lastOrderDate.or p.lastOrderDate
  preferredCategory := patch.preferredCategory.or p.preferredCategory
  location := patch.location.or p.location
  status := patch.status.getD p.status
  tags := patch.tags.getD p.tags
  attributes := patch.attributes.getD p.attributes
  segments := patch.segments.getD p.segments

end CustomerPatch

end CustomerSegments
