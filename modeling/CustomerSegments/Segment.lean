import CustomerSegments.Id.Set
import CustomerSegments.Json.Text
import CustomerSegments.Rule.Basic
import CustomerSegments.Time.Text

namespace CustomerSegments

/-- A named group of customers with its rules and a stored audience size. The size may fall below
zero, for memberships lower it without looking at it. -/
structure Segment where
  id : Uuid
  name : String
  description : Option String
  rules : List Rule
  audienceSize : Int64
  isActive : Bool
  createdAt : Instant
  updatedAt : Instant
  createdBy : String
deriving DecidableEq

/-- What a campaign sees of a segment. -/
structure SegmentSummary where
  id : Uuid
  name : String
  audienceSize : Int64
deriving DecidableEq

/-- A size with a sign in 64 bits. -/
def sizeDecoder : Json.Decoder Int64 := fun source r =>
  (Json.Decoder.integer (-9223372036854775808) 9223372036854775807 source r).map Int64.ofInt

namespace SegmentSummary

def toJson (s : SegmentSummary) : Json :=
  .mk [("id", s.id.toJson), ("name", .string s.name), ("audienceSize", .ofInt64 s.audienceSize)]

def decoder : Json.Decoder SegmentSummary :=
  .record ["id", "name", "audienceSize"] fun f =>
    SegmentSummary.mk <$> f.required "id" Uuid.decoder <*> f.required "name" .string <*>
      f.required "audienceSize" sizeDecoder

end SegmentSummary

namespace Segment

def summary (s : Segment) : SegmentSummary :=
  ⟨s.id, s.name, s.audienceSize⟩

/-- The members of a segment in the order in which they are written, with its rules as documents. -/
def members (s : Segment) (rules : List Json) : List (String × Json) :=
  [("id", s.id.toJson), ("name", .string s.name),
    ("description", .ofOption .string s.description), ("rules", .array rules),
    ("audienceSize", .ofInt64 s.audienceSize), ("isActive", .bool s.isActive),
    ("createdAt", s.createdAt.toJson), ("updatedAt", s.updatedAt.toJson),
    ("createdBy", .string s.createdBy)]

def toJson (s : Segment) : Json :=
  .mk (s.members (s.rules.map Rule.toJson))

/-- The text that is stored for a segment. -/
@[irreducible]
def text (s : Segment) : String :=
  (Json.object (s.members (s.rules.map Rule.written))).text

def decoder : Json.Decoder Segment :=
  .record ["id", "name", "description", "rules", "audienceSize", "isActive", "createdAt",
      "updatedAt", "createdBy"] fun f =>
    Segment.mk <$> f.required "id" Uuid.decoder <*> f.required "name" .string <*>
      f.optional "description" .string <*> f.defaulted "rules" (.list Rule.decoder) [] <*>
      f.defaulted "audienceSize" sizeDecoder 0 <*> f.defaulted "isActive" .bool true <*>
      f.required "createdAt" Instant.decoder <*> f.required "updatedAt" Instant.decoder <*>
      f.required "createdBy" .string

end Segment

end CustomerSegments
