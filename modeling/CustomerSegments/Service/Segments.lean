import CustomerSegments.Audience
import CustomerSegments.Request

namespace CustomerSegments.Segments

open Store

def list : Operation (List Segment) :=
  call .listSegments

/-- The segment of an id, which has to be there. -/
def get (id : Uuid) : Operation Segment := do
  match ← call (.getSegment id) with
  | some s => pure s
  | none => throw (.missing .segment id)

def summary (id : Uuid) : Operation SegmentSummary := do
  return (← get id).summary

/-- Stores a new segment, then counts its audience. -/
def create (request : NewSegment) (createdBy : String) : Operation Segment := do
  let name ← Attempt.settled (validName .segment request.name)
  if (← call (.findSegmentByName name)).isSome then throw (.duplicateName name)
  let now ← Attempt.now
  let id ← Attempt.freshId .segment
  call (.insertSegment
    { id, name, description := request.description, rules := request.rules, audienceSize := 0
      isActive := request.isActive, createdAt := now, updatedAt := now, createdBy })
  let _ ← Audience.recompute id request.rules
  get id

/-- The name that a segment has after an update under an id: a new one has to be free, or to lead
to that id. -/
def newName (id : Uuid) (s : Segment) (requested : Option String) : Operation String := do
  match requested with
  | none => pure s.name
  | some requested =>
    let name ← Attempt.settled (validName .segment requested)
    if name ≠ s.name then
      match ← call (.findSegmentByName name) with
      | some other => if other.id ≠ id then throw (.duplicateName name)
      | none => pure ()
    pure name

/-- Replaces the parts of a segment that are present. Only rules move its audience size: they are
counted again. -/
def update (id : Uuid) (patch : SegmentPatch) : Operation Segment := do
  let s ← get id
  let name ← newName id s patch.name
  let now ← Attempt.now
  let s := { patch.apply s with name := name, updatedAt := now }
  call (.updateSegment s)
  if patch.rules.isSome then
    let _ ← Audience.recompute id s.rules
  get id

/-- Deletes a segment and takes it from the customers that held it; their number. -/
def delete (id : Uuid) : Operation Nat := do
  match ← call (.deleteSegment id) with
  | none => throw (.missing .segment id)
  | some _ => Audience.segmentDeleted id

end CustomerSegments.Segments
