import CustomerSegments.Time.Calendar

namespace CustomerSegments

/-- A point in time: seconds from the first of January 1970, midnight in Greenwich, and
nanoseconds. From one second of nanoseconds on it lies in a leap second, which follows the last
second of a minute. The years run from -262143 to 262142. -/
structure Instant where
  second : Int
  nano : Nat
  first_le : -8334601228800 ≤ second
  le_last : second ≤ 8210266876799
  nano_lt : nano < 2000000000
  leap : 1000000000 ≤ nano → second % 60 = 59
deriving DecidableEq

namespace Instant

def of? (second : Int) (nano : Nat) : Option Instant :=
  if h : -8334601228800 ≤ second ∧ second ≤ 8210266876799 ∧ nano < 2000000000 ∧
      (1000000000 ≤ nano → second % 60 = 59) then
    some ⟨second, nano, h.1, h.2.1, h.2.2.1, h.2.2.2⟩
  else none

def epoch : Instant := ⟨0, 0, by decide, by decide, by decide, by decide⟩

instance : Inhabited Instant := ⟨epoch⟩

/-- The order in time: by seconds, then by nanoseconds. -/
def compare (a b : Instant) : Ordering :=
  (Ord.compare a.second b.second).then (Ord.compare a.nano b.nano)

def isBefore (a b : Instant) : Bool :=
  a.second < b.second || (a.second == b.second && a.nano < b.nano)

/-- The nanoseconds from the first of January 1970. -/
def nanoseconds (t : Instant) : Int :=
  t.second * 1000000000 + t.nano

/-- The greatest number of days whose milliseconds 63 bits hold. -/
def maxDays : Int := 106751991167

/-- The instant that many days earlier; none outside the range of instants, or if the distance
itself is too long. A leap second that is left counts as the second after it on the way back and
as the second before it on the way forward. -/
def daysEarlier? (t : Instant) (days : Int) : Option Instant :=
  if days < -maxDays ∨ maxDays < days then none
  else if days = 0 then some t
  else if t.nano < 1000000000 then of? (t.second - 86400 * days) t.nano
  else if 0 < days then of? (t.second + 1 - 86400 * days) (t.nano - 1000000000)
  else of? (t.second - 86400 * days) (t.nano - 1000000000)

end Instant

end CustomerSegments
