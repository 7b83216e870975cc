import CustomerSegments.Id.Set
import CustomerSegments.Json.Text
import CustomerSegments.Time.Text

namespace CustomerSegments

inductive Status where
  | active
  | inactive
  | churned
deriving DecidableEq, Repr

namespace Status

def name : Status → String
  | active => "active"
  | inactive => "inactive"
  | churned => "churned"

def toJson (s : Status) : Json :=
  .string s.name

def decoder : Json.Decoder Status :=
  .choice [("active", active), ("inactive", inactive), ("churned", churned)]

end Status

/-- What is recorded about a customer apart from its identity and its times. -/
structure Profile where
  name : String
  email : Option String
  phone : Option String
  totalSpend : Double
  visitCount : UInt64
  lastVisit : Option Instant
  lastOrderDate : Option Instant
  preferredCategory : Option String
  location : Option String
  status : Status
  tags : List String
  /-- free-form members, in the order of their names -/
  attributes : List (String × Json)
  /-- the segments that the customer was put into by hand -/
  segments : IdSet
deriving DecidableEq

/-- A customer's record. -/
structure Customer where
  id : Uuid
  profile : Profile
  createdAt : Instant
  updatedAt : Instant
deriving DecidableEq

namespace Profile

/-- A customer of whom only the name is known. -/
def named (name : String) : Profile where
  name := name
  email := none
  phone := none
  totalSpend := .zero
  visitCount := 0
  lastVisit := none
  lastOrderDate := none
  preferredCategory := none
  location := none
  status := .active
  tags := []
  attributes := []
  segments := .empty

def members (p : Profile) : List (String × Json) :=
  [("name", .string p.name), ("email", .ofOption .string p.email),
    ("phone", .ofOption .string p.phone), ("totalSpend", .ofDouble p.totalSpend),
    ("visitCount", .ofUInt64 p.visitCount), ("lastVisit", .ofOption Instant.toJson p.lastVisit),
    ("lastOrderDate", .ofOption Instant.toJson p.lastOrderDate),
    ("preferredCategory", .ofOption .string p.preferredCategory),
    ("location", .ofOption .string p.location), ("status", p.status.toJson),
    ("tags", .array (p.tags.map .string)), ("attributes", .object p.attributes),
    ("segments", p.segments.toJson)]

def memberNames : List String :=
  ["name", "email", "phone", "totalSpend", "visitCount", "lastVisit", "lastOrderDate",
    "preferredCategory", "location", "status", "tags", "attributes", "segments"]

/-- A count without a sign in 64 bits. -/
def count : Json.Decoder UInt64 := fun source r =>
  (Json.Decoder.integer 0 18446744073709551615 source r).map fun n => .ofNat n.toNat

/-- Only the name is required. -/
def read (f : Json.Fields) : Json.Located Profile :=
  Profile.mk <$> f.required "name" .string <*> f.optional "email" .string <*>
    f.optional "phone" .string <*> f.defaulted "totalSpend" .double .zero <*>
    f.defaulted "visitCount" count 0 <*> f.optional "lastVisit" Instant.decoder <*>
    f.optional "lastOrderDate" Instant.decoder <*> f.optional "preferredCategory" .string <*>
    f.optional "location" .string <*> f.defaulted "status" Status.decoder .active <*>
    f.defaulted "tags" (.list .string) [] <*> f.defaulted "attributes" .members [] <*>
    f.defaulted "segments" IdSet.decoder .empty

end Profile

namespace Customer

def segments (c : Customer) : IdSet :=
  c.profile.segments

def withSegments (c : Customer) (segments : IdSet) : Customer :=
  { c with profile := { c.profile with segments := segments } }

/-- Takes a segment from a customer that holds it. -/
def strip (segment : Uuid) (now : Instant) (c : Customer) : Customer :=
  if segment ∈ c.segments then
    { c.withSegments (c.segments.erase segment) with updatedAt := now }
  else c

/-- The members of a customer in the order in which they are written. -/
def members (c : Customer) : List (String × Json) :=
  ("id", c.id.toJson) :: c.profile.members ++
    [("createdAt", c.createdAt.toJson), ("updatedAt", c.updatedAt.toJson)]

/-- The document of a customer, which predicates test and clients see. -/
def toJson (c : Customer) : Json :=
  .mk c.members

/-- The text that is stored for a customer. The free-form members may stand in any order; they stand by their names
here. -/
@[irreducible]
def text (c : Customer) : String :=
  (Json.object c.members).text

/-- A customer whose free-form members are listed in another order. -/
def listing (c : Customer) (attributes : List (String × Json)) : Customer :=
  { c with profile := { c.profile with attributes := attributes } }

def decoder : Json.Decoder Customer :=
  .record ("id" :: Profile.memberNames ++ ["createdAt", "updatedAt"]) fun f =>
    Customer.mk <$> f.required "id" Uuid.decoder <*> Profile.read f <*>
      f.required "createdAt" Instant.decoder <*> f.required "updatedAt" Instant.decoder

end Customer

end CustomerSegments
