import CustomerSegments.Id.Basic
import CustomerSegments.Redis.Command

namespace CustomerSegments

/-- The kinds of records. -/
inductive Entity where
  | segment
  | customer
deriving DecidableEq, Repr

def Entity.name : Entity → String
  | segment => "segment"
  | customer => "customer"

/-- Why a store gives no answer. -/
inductive StoreFault where
  | failed (reason : String)
  | refused (refusal : Redis.Refusal)
  /-- an answer of another kind than the one asked for -/
  | unreadable
  /-- a customer's record was changed by others each time a segment was to be taken from it -/
  | contended (customer segment : Uuid)
deriving DecidableEq

namespace StoreFault

def unavailable : StoreFault := failed "unavailable"

def message : StoreFault → String
  | failed reason => reason
  | refused refusal => refusal.message
  | unreadable => "the reply is of another kind than the one asked for"
  | contended customer segment =>
    "customer " ++ customer.text ++ " kept changing while removing segment " ++ segment.text

end StoreFault

/-- Why an operation fails. -/
inductive Error where
  | validation (text : String)
  | duplicateName (name : String)
  | notFound (entity : Entity) (id : String)
  | store (fault : StoreFault)
  | serialization (problem : Json.Problem)
  | internal (text : String)
deriving DecidableEq

namespace Error

/-- Nothing is stored under an id. -/
def missing (entity : Entity) (id : Uuid) : Error :=
  notFound entity id.text

def isNotFound : Error → Bool
  | notFound _ _ => true
  | _ => false

def message : Error → String
  | validation text => "Validation error: " ++ text
  | duplicateName name => "Segment name already exists: " ++ name
  | notFound entity id => entity.name ++ " not found: " ++ id
  | store fault => "Store error: " ++ fault.message
  | serialization .malformed => "Serialization error: the text is no JSON"
  | serialization .misfit => "Serialization error: the document has another shape"
  | internal text => "Internal error: " ++ text

end Error

end CustomerSegments
