import CustomerSegments.Membership
import CustomerSegments.Rule.Compile
import CustomerSegments.Store.Call

namespace CustomerSegments.Audience

open Store

/-- Counts the customers that a predicate holds of; the one that holds of none needs no store. -/
def count (p : Predicate) : Operation Nat :=
  if p.isNothing then pure 0 else call (.countMatching p)

/-- Notes every rule that is left out. -/
def noteDrops : List Drop → Action Unit
  | [] => pure ()
  | _ :: rest => do
    Task.tally .rulesDropped 1
    noteDrops rest

/-- Counts the customers that a rule list means at present. -/
def countRules (rules : List Rule) : Operation Nat := do
  let compiled := compile rules (← Attempt.now)
  Attempt.sure (noteDrops compiled.dropped)
  count compiled.predicate

/-- The size of a rule list's audience; zero if the store fails. -/
def preview (rules : List Rule) : Action Nat := do
  match ← (countRules rules).run with
  | .ok size => pure size
  | .error _ =>
    Task.tally .previewErrors 1
    pure 0

/-- The number that is stored as an audience size. -/
def storedSize (n : Nat) : Int64 :=
  if n ≤ 9223372036854775807 then Int64.ofNat n else Int64.maxValue

/-- Counts the customers that a segment's rules mean and stores their number, whatever the size
was. Memberships play no part. -/
def recompute (segment : Uuid) (rules : List Rule) : Operation Nat := do
  let size ← countRules rules
  call (.setAudienceSize segment (storedSize size))
  Attempt.sure (Task.tally .segmentsRecomputed 1)
  pure size

/-- Adds to the size of each segment in a list. Every addition is atomic, the batch is not. -/
def applyDelta (delta : Int64) : List Uuid → Action DeltaOutcome
  | [] => pure .empty
  | id :: rest => do
    match ← (call (.incrementAudienceSize id delta)).run with
    | .ok _ =>
      Task.tally .deltasApplied 1
      pure (⟨[id], []⟩ ++ (← applyDelta delta rest))
    | .error _ =>
      Task.tally .deltasFailed 1
      pure (⟨[], [id]⟩ ++ (← applyDelta delta rest))

/-- Adds one for every segment of a new customer. -/
def customerCreated (c : Customer) : Action DeltaOutcome :=
  applyDelta 1 c.segments.toList

/-- Adds one for every segment that a customer gained, then takes one for every segment lost. -/
def customerUpdated (before after : IdSet) : Action DeltaOutcome := do
  let change := MembershipChange.between before after
  let added ← applyDelta 1 change.added
  let removed ← applyDelta (-1) change.removed
  pure (added ++ removed)

/-- Takes one for every segment of a customer that is gone. -/
def customerDeleted (c : Customer) : Action DeltaOutcome :=
  applyDelta (-1) c.segments.toList

/-- Takes a segment that is gone from every customer that held it, and counts these customers.
The sizes of other segments stay. -/
def segmentDeleted (segment : Uuid) : Operation Nat :=
  call (.removeSegmentFromAll segment)

end CustomerSegments.Audience
