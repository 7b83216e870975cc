import CustomerSegments.Predicate.Matching
import CustomerSegments.Store.Call
import CustomerSegments.Store.Table

namespace CustomerSegments

/-- A store that keeps its records in memory. The names of segments lead to their ids. -/
structure Memory where
  customers : Table Uuid Customer
  segments : Table Uuid Segment
  names : Table String Uuid
deriving DecidableEq

namespace Memory

def empty : Memory := ⟨.empty, .empty, .empty⟩

def insertSegment (s : Segment) (m : Memory) : Except Error Unit × Memory :=
  match m.names.get? s.name with
  | some _ => (.error (.duplicateName s.name), m)
  | none =>
    (.ok (), { m with names := m.names.insert s.name s.id, segments := m.segments.insert s.id s })

/-- The index after a segment changed its name; none if the new name belongs to another one. -/
def renamed? (id : Uuid) (old new : String) (names : Table String Uuid) :
    Option (Table String Uuid) :=
  if old = new then some names
  else
    match names.get? new with
    | some owner => if owner = id then some (names.erase old) else none
    | none => some ((names.insert new id).erase old)

def updateSegment (s : Segment) (m : Memory) : Except Error Unit × Memory :=
  match m.segments.get? s.id with
  | none => (.error (.missing .segment s.id), m)
  | some old =>
    match renamed? s.id old.name s.name m.names with
    | none => (.error (.duplicateName s.name), m)
    | some names =>
      let segment := { s with audienceSize := old.audienceSize }
      (.ok (), { m with names := names, segments := m.segments.insert s.id segment })

def deleteSegment (id : Uuid) (m : Memory) : Option Segment × Memory :=
  match m.segments.get? id with
  | none => (none, m)
  | some s => (some s, { m with segments := m.segments.erase id, names := m.names.erase s.name })

/-- Answers a call made at a time. -/
def answer : (c : Store.Call) → Instant → Memory → c.Answer × Memory
  | .insertCustomer c, _, m => (.ok (), { m with customers := m.customers.insert c.id c })
  | .getCustomer id, _, m => (.ok (m.customers.get? id), m)
  | .updateCustomer c, _, m =>
    if m.customers.contains c.id then
      (.ok (), { m with customers := m.customers.insert c.id c })
    else (.error (.missing .customer c.id), m)
  | .deleteCustomer id, _, m =>
    (.ok (m.customers.get? id), { m with customers := m.customers.erase id })
  | .listCustomers, _, m => (.ok (Store.newestFirst Customer.createdAt m.customers.values), m)
  | .countMatching p, _, m =>
    (.ok (m.customers.values.countP fun c => p.holds c.toJson), m)
  | .removeSegmentFromAll segment, now, m =>
    (.ok (m.customers.values.countP (segment ∈ ·.segments)),
      { m with customers := m.customers.map (Customer.strip segment now) })
  | .insertSegment s, _, m => m.insertSegment s
  | .getSegment id, _, m => (.ok (m.segments.get? id), m)
  | .findSegmentByName name, _, m => (.ok ((m.names.get? name).bind m.segments.get?), m)
  | .updateSegment s, _, m => m.updateSegment s
  | .deleteSegment id, _, m =>
    let (removed, m) := m.deleteSegment id
    (.ok removed, m)
  | .listSegments, _, m => (.ok (Store.newestFirst Segment.createdAt m.segments.values), m)
  | .setAudienceSize id size, now, m =>
    match m.segments.get? id with
    | none => (.error (.missing .segment id), m)
    | some s =>
      let s := { s with audienceSize := size, updatedAt := now }
      (.ok (), { m with segments := m.segments.insert id s })
  | .incrementAudienceSize id delta, _, m =>
    match m.segments.get? id with
    | none => (.error (.missing .segment id), m)
    | some s =>
      let s := { s with audienceSize := s.audienceSize + delta }
      (.ok s.audienceSize, { m with segments := m.segments.insert id s })
  | .ping, _, m => (.ok (), m)

end Memory

end CustomerSegments
