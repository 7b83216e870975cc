import CustomerSegments.Proofs.InMemory
import CustomerSegments.Proofs.Listings
import CustomerSegments.Proofs.RedisStripping
import CustomerSegments.Proofs.SegmentListing
import Mathlib.Algebra.Group.Nat.Defs

namespace CustomerSegments

namespace Redis.Server

/-- A double holds a number exactly if the number is a multiple of its last place. -/
theorem nearestDouble_eq_iff {n : Nat} : nearestDouble n = n ↔ 2 ^ (n.log2 - 52) ∣ n := by
  have positive : 0 < 2 ^ (n.log2 - 52) := Nat.two_pow_pos _
  constructor
  · intro exact
    have multiple : 2 ^ (n.log2 - 52) ∣ nearestDouble n := by
      rw [nearestDouble, Nat.one_shiftLeft]
      exact Nat.dvd_mul_left _ _
    rwa [exact] at multiple
  · intro divides
    have whole : 2 * (n % 2 ^ (n.log2 - 52)) < 2 ^ (n.log2 - 52) := by
      rw [Nat.mod_eq_zero_of_dvd divides]
      exact positive
    rw [nearestDouble, Nat.one_shiftLeft, if_pos (Or.inl whole)]
    exact Nat.div_mul_cancel divides

theorem dvd_of_small {n : Nat} (small : n ≤ 9007199254740992) : 2 ^ (n.log2 - 52) ∣ n := by
  by_cases top : n = 9007199254740992
  · subst top
    decide
  · have bits : n.log2 ≤ 52 := by
      by_cases zero : n = 0
      · subst zero
        decide
      · have below : n.log2 < 53 := (Nat.log2_lt zero).2 (by omega)
        omega
    rw [Nat.sub_eq_zero_of_le bits]
    exact Nat.one_dvd _

/-- A script gives back the numbers of 64 bits that doubles hold, and no others. -/
theorem throughScript_eq_iff {n : Int} (least : -9223372036854775808 ≤ n) (most : n ≤ 9223372036854775807) :
    throughScript n = n ↔ 2 ^ (n.natAbs.log2 - 52) ∣ n.natAbs := by
  rw [← nearestDouble_eq_iff, throughScript]
  by_cases bottom : n = -9223372036854775808
  · subst bottom
    decide
  · -- What does not fit comes back as the least integer, and `n` is another one.
    constructor
    · intro given
      split at given <;> split at given <;> omega
    · intro exact
      rw [exact]
      split <;> omega

theorem throughScript_fits (n : Int) :
    -9223372036854775808 ≤ throughScript n ∧ throughScript n ≤ 9223372036854775807 := by
  rw [throughScript]
  omega

end Redis.Server

namespace Store

open Redis

namespace Call

/-- Records whose text names them are all that a call brings along. -/
def Storable : Call → Prop
  | insertCustomer c | updateCustomer c => c.toJson.Storable
  | insertSegment s | updateSegment s => s.toJson.Storable
  | _ => True

/-- A call keeps audience sizes in 64 bits. -/
def Fits : Call → Memory → Prop
  | incrementAudienceSize id delta, m =>
    ∀ s, m.segments.get? id = some s →
      -9223372036854775808 ≤ s.audienceSize.toInt + delta.toInt ∧
        s.audienceSize.toInt + delta.toInt ≤ 9223372036854775807
  | _, _ => True

/-- A new size that fits is the sum. -/
theorem Fits.toInt_add {id : Uuid} {delta : Int64} {m : Memory} {s : Segment} (fits : (incrementAudienceSize id delta).Fits m)
    (live : m.segments.get? id = some s) : (s.audienceSize + delta).toInt = s.audienceSize.toInt + delta.toInt := by
  obtain ⟨least, most⟩ := fits s live
  rw [Int64.toInt_add]
  exact Int.bmod_eq_of_le (by omega) (by omega)

/-- A script gives back the new size that a call asks for. -/
def Exact : Call → Memory → Prop
  | incrementAudienceSize id delta, m =>
    ∀ s, m.segments.get? id = some s →
      Server.throughScript (s.audienceSize + delta).toInt = (s.audienceSize + delta).toInt
  | _, _ => True

/-- A new size of up to 53 bits is given back. -/
theorem exact_of_small {id : Uuid} {delta : Int64} {m : Memory}
    (small : ∀ s, m.segments.get? id = some s →
      -9007199254740992 ≤ (s.audienceSize + delta).toInt ∧ (s.audienceSize + delta).toInt ≤ 9007199254740992) :
    (incrementAudienceSize id delta).Exact m := by
  intro s live
  obtain ⟨least, most⟩ := small s live
  exact (Server.throughScript_eq_iff (by omega) (by omega)).2 (Server.dvd_of_small (by omega))

/-- Results that differ at most in the times of the last changes of segments, and in the order of
records that are listed with equal times of creation. -/
def Same : (c : Call) → c.Result → c.Result → Prop
  | getSegment _, a, b | findSegmentByName _, a, b | deleteSegment _, a, b =>
    a.map Segment.undated = b.map Segment.undated
  | listCustomers, a, b => a.Perm b ∧ a.map Customer.createdAt = b.map Customer.createdAt
  | listSegments, a, b =>
    (a.map Segment.undated).Perm (b.map Segment.undated) ∧ a.map Segment.createdAt = b.map Segment.createdAt
  | getCustomer _, a, b | deleteCustomer _, a, b => a = b
  | countMatching _, a, b | removeSegmentFromAll _, a, b => a = b
  | incrementAudienceSize _ _, a, b => a = b
  | insertCustomer _, a, b | updateCustomer _, a, b | insertSegment _, a, b | updateSegment _, a, b
  | setAudienceSize _ _, a, b | ping, a, b => a = b

/-- Answers that say the same, or the same error. -/
def Agree (c : Call) : c.Answer → c.Answer → Prop
  | .ok a, .ok b => c.Same a b
  | .error e, .error e' => e = e'
  | _, _ => False

end Call

/-- A call, and what the clock shows while it is made. -/
structure TimedCall where
  call : Call
  clock : Nat → Instant

namespace TimedCall

def inMemory (c : TimedCall) (m : Memory) : c.call.Answer × Memory :=
  Memory.answer c.call (c.clock 0) m

def onServer (l : Layout) (c : TimedCall) (s : Server) : c.call.Answer × Server :=
  let (answer, w) := Server.run (l.operation c.call).run (.start s c.clock Uuid.counting)
  (answer, w.state)

end TimedCall

/-- A store in memory after some calls. -/
def memoryAfter (calls : List TimedCall) (m : Memory) : Memory :=
  calls.foldl (fun m c => (c.inMemory m).2) m

/-- A server after some calls. -/
def serverAfter (l : Layout) (calls : List TimedCall) (s : Server) : Server :=
  calls.foldl (fun s c => (c.onServer l s).2) s

/-- Calls with storable records that keep audience sizes in 64 bits. -/
def Sound : List TimedCall → Memory → Prop
  | [], _ => True
  | c :: rest, m => c.call.Storable ∧ c.call.Fits m ∧ Sound rest (c.inMemory m).2

theorem Sound.of_append {calls rest : List TimedCall} {m : Memory} (sound : Sound (calls ++ rest) m) :
    Sound calls m ∧ Sound rest (memoryAfter calls m) := by
  induction calls generalizing m with
  | nil => exact ⟨trivial, sound⟩
  | cons c others ih =>
    obtain ⟨storable, fits, later⟩ := sound
    obtain ⟨first, last⟩ := ih later
    exact ⟨⟨storable, fits, first⟩, last⟩

end Store

end CustomerSegments
