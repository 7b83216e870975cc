import CustomerSegments.Id.Set

namespace CustomerSegments

/-- The segments that a change of a membership set adds and removes. -/
structure MembershipChange where
  added : List Uuid
  removed : List Uuid
deriving DecidableEq

namespace MembershipChange

def between (before after : IdSet) : MembershipChange :=
  ⟨(after.diff before).toList, (before.diff after).toList⟩

def isEmpty (c : MembershipChange) : Bool :=
  c.added.isEmpty && c.removed.isEmpty

end MembershipChange

/-- What became of a batch of deltas. A failed one is not tried again, and the applied ones stay. -/
structure DeltaOutcome where
  applied : List Uuid
  failed : List Uuid
deriving DecidableEq

namespace DeltaOutcome

def empty : DeltaOutcome := ⟨[], []⟩

instance : Append DeltaOutcome :=
  ⟨fun a b => ⟨a.applied ++ b.applied, a.failed ++ b.failed⟩⟩

def isComplete (o : DeltaOutcome) : Bool :=
  o.failed.isEmpty

@[simp]
theorem applied_append (a b : DeltaOutcome) : (a ++ b).applied = a.applied ++ b.applied := rfl

@[simp]
theorem failed_append (a b : DeltaOutcome) : (a ++ b).failed = a.failed ++ b.failed := rfl

end DeltaOutcome

end CustomerSegments
