import CustomerSegments.Id.Basic

namespace CustomerSegments.Redis

/-- How records are spread over the keys of a server, and how many are loaded with one command. A
page size of zero counts as one. -/
structure Layout where
  keyPrefix : String
  pageSize : Nat
deriving DecidableEq

namespace Layout

/-- The key of the record of a customer. -/
def customerKey (l : Layout) (id : String) : String :=
  l.keyPrefix ++ ":customer:" ++ id

/-- The set of the ids of customers. -/
def customersKey (l : Layout) : String :=
  l.keyPrefix ++ ":customers"

/-- The key of the record of a segment. -/
def segmentKey (l : Layout) (id : String) : String :=
  l.keyPrefix ++ ":segment:" ++ id

/-- The set of the ids of segments. -/
def segmentsKey (l : Layout) : String :=
  l.keyPrefix ++ ":segments"

/-- The hash from the names of segments to their ids. -/
def namesKey (l : Layout) : String :=
  l.keyPrefix ++ ":segment_names"

/-- The hash from the ids of segments to their audience sizes. -/
def audienceKey (l : Layout) : String :=
  l.keyPrefix ++ ":audience"

end Layout

/-- A list in pieces of a given size, the last one shorter if need be. -/
def pages (size : Nat) (l : List α) : List (List α) :=
  if l.isEmpty then []
  else l.take (max size 1) :: pages size (l.drop (max size 1))
termination_by l.length
decreasing_by
  cases l with
  | nil => simp at *
  | cons a l => simp only [List.length_drop, List.length_cons]; omega

end CustomerSegments.Redis
