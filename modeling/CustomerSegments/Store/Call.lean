import CustomerSegments.Customer
import CustomerSegments.Effect
import CustomerSegments.Predicate.Basic
import CustomerSegments.Segment

namespace CustomerSegments.Store

/-- What a store can be asked to do with customers and segments. -/
inductive Call where
  | insertCustomer (c : Customer)
  | getCustomer (id : Uuid)
  /-- replaces a customer that is there -/
  | updateCustomer (c : Customer)
  | deleteCustomer (id : Uuid)
  | listCustomers
  | countMatching (p : Predicate)
  /-- takes a segment from every customer that holds it, and counts these customers -/
  | removeSegmentFromAll (segment : Uuid)
  | insertSegment (s : Segment)
  | getSegment (id : Uuid)
  | findSegmentByName (name : String)
  /-- replaces the definition of a segment that is there, and keeps its audience size -/
  | updateSegment (s : Segment)
  | deleteSegment (id : Uuid)
  | listSegments
  | setAudienceSize (id : Uuid) (size : Int64)
  /-- adds to the audience size of a segment that is there; the answer is the new size -/
  | incrementAudienceSize (id : Uuid) (delta : Int64)
  | ping

namespace Call

/-- What a call gives if it succeeds. -/
@[reducible]
def Result : Call → Type
  | getCustomer _ | deleteCustomer _ => Option Customer
  | listCustomers => List Customer
  | countMatching _ | removeSegmentFromAll _ => Nat
  | getSegment _ | findSegmentByName _ | deleteSegment _ => Option Segment
  | listSegments => List Segment
  | incrementAudienceSize _ _ => Int64
  | insertCustomer _ | updateCustomer _ | insertSegment _ | updateSegment _
  | setAudienceSize _ _ | ping => Unit

def Answer (c : Call) : Type :=
  Except Error c.Result

end Call

/-- The kinds of calls. -/
inductive Method where
  | insertCustomer
  | getCustomer
  | updateCustomer
  | deleteCustomer
  | listCustomers
  | countMatching
  | removeSegmentFromAll
  | insertSegment
  | getSegment
  | findSegmentByName
  | updateSegment
  | deleteSegment
  | listSegments
  | setAudienceSize
  | incrementAudienceSize
  | ping
deriving DecidableEq, Repr

def Call.method : Call → Method
  | insertCustomer _ => .insertCustomer
  | getCustomer _ => .getCustomer
  | updateCustomer _ => .updateCustomer
  | deleteCustomer _ => .deleteCustomer
  | listCustomers => .listCustomers
  | countMatching _ => .countMatching
  | removeSegmentFromAll _ => .removeSegmentFromAll
  | insertSegment _ => .insertSegment
  | getSegment _ => .getSegment
  | findSegmentByName _ => .findSegmentByName
  | updateSegment _ => .updateSegment
  | deleteSegment _ => .deleteSegment
  | listSegments => .listSegments
  | setAudienceSize _ _ => .setAudienceSize
  | incrementAudienceSize _ _ => .incrementAudienceSize
  | ping => .ping

/-- The method of a name. -/
def Method.ofName? : String → Option Method
  | "insert_customer" => some insertCustomer
  | "get_customer" => some getCustomer
  | "update_customer" => some updateCustomer
  | "delete_customer" => some deleteCustomer
  | "list_customers" => some listCustomers
  | "count_matching" => some countMatching
  | "remove_segment_from_all" => some removeSegmentFromAll
  | "insert_segment" => some insertSegment
  | "get_segment" => some getSegment
  | "find_segment_by_name" => some findSegmentByName
  | "update_segment" => some updateSegment
  | "delete_segment" => some deleteSegment
  | "list_segments" => some listSegments
  | "set_audience_size" => some setAudienceSize
  | "increment_audience_size" => some incrementAudienceSize
  | "ping" => some ping
  | _ => none

/-- A task over a store. -/
abbrev Action := Task Call Call.Answer

/-- A task over a store that may fail. -/
abbrev Operation := Attempt Call Call.Answer

/-- Makes one call. -/
def call (c : Call) : Operation c.Result :=
  ExceptT.mk (Task.backend c)

/-- A task in which the calls of some methods fail and leave the store alone. -/
def withFailing (failing : List Method) (task : Action α) : Action α :=
  task.onBackend fun c =>
    if c.method ∈ failing then pure (.error (.store .unavailable)) else Task.backend c

/-- Records from the newest to the oldest; of the same age, in the order they had. -/
def newestFirst (createdAt : α → Instant) (records : List α) : List α :=
  records.mergeSort fun a b => !(createdAt a).isBefore (createdAt b)

end CustomerSegments.Store
