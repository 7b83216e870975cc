import CustomerSegments.Decimal.Double
import Mathlib.Algebra.Order.Field.Power
import Mathlib.Algebra.Order.Floor.Semifield
import Mathlib.Data.Rat.Floor
import Mathlib.Tactic.Linarith

namespace CustomerSegments

open Float.Model UnpackedFloat

/-- A rational number without its fraction. -/
def towardZero (q : ℚ) : ℤ :=
  if 0 ≤ q then ⌊q⌋ else ⌈q⌉

/-- The rational number that an unpacked double stands for: its sign, its mantissa and a power of two. -/
def unpackedValue : UnpackedFloat → ℚ
  | .finite .positive m e _ => m * 2 ^ e
  | .finite .negative m e _ => -(m * 2 ^ e)
  | _ => 0

theorem towardZero_of_nonneg {q : ℚ} (nonneg : 0 ≤ q) : towardZero q = ⌊q⌋ :=
  if_pos nonneg

theorem towardZero_neg {q : ℚ} (nonneg : 0 ≤ q) : towardZero (-q) = -⌊q⌋ := by
  unfold towardZero
  split
  · next small =>
    have zero : q = 0 := by linarith
    rw [zero, neg_zero, Int.floor_zero, neg_zero]
  · rw [Int.ceil_neg]

namespace Double

/-- The rational number that a double is. -/
def value (x : Double) : ℚ :=
  unpackedValue x.toFloat.toModel.unpack

def sign (x : Double) : Sign :=
  if x.isNegative then .negative else .positive

section

variable (b : BitVec Format.binary64.numBits)

theorem toNat_unpackMantissa : (unpackMantissa b).toNat = b.toNat % 1 <<< 52 := by
  simp [unpackMantissa, BitVec.extractLsb]

theorem toNat_unpackExponent : (unpackExponent b).toNat = (b.toNat >>> 52) % 1 <<< 11 := by
  simp [unpackExponent, BitVec.extractLsb]

theorem toNat_unpackSign : (unpackSign b).toNat = b.toNat >>> 63 := by
  have short : b.toNat < 2 ^ 64 := b.isLt
  change (BitVec.extractLsb 63 63 b).toNat = _
  rw [BitVec.extractLsb_toNat]
  omega

end

/-- A leading bit adds the power of two behind the bits of a fraction. -/
theorem toNat_leading (v : BitVec 52) : (1#1 ++ v).toNat = 2 ^ 52 + v.toNat := by
  rw [BitVec.toNat_append, ← Nat.shiftLeft_add_eq_or_of_lt v.isLt]
  rfl

theorem finite_congr {s : Sign} {m m' : Nat} {e e' : Int} {pos : 0 < m} {pos' : 0 < m'} (mantissa : m = m')
    (exponent : e = e') : UnpackedFloat.finite s m e pos = .finite s m' e' pos' := by
  subst mantissa exponent
  rfl

theorem unpackSign_eq {x : Double} {b : BitVec Format.binary64.numBits} (bits : x.toFloat.toBits.toNat = b.toNat) :
    Sign.ofBitVec (unpackSign b) = x.sign := by
  have bit := toNat_unpackSign b
  have small : (unpackSign b).toNat < 2 ^ 1 := (unpackSign b).isLt
  have clear : unpackSign b = 0#1 ↔ (unpackSign b).toNat = 0 := by
    rw [← BitVec.toNat_inj]
    rfl
  rw [Sign.ofBitVec, sign, isNegative, bits, ← bit]
  by_cases zero : (unpackSign b).toNat = 0
  · rw [if_pos (clear.2 zero), zero]
    rfl
  · have one : (unpackSign b).toNat = 1 := by omega
    rw [if_neg (mt clear.1 zero), one]
    rfl

/-- The sign, the mantissa and the exponent are those that the float itself is unpacked to. -/
theorem unpack_eq (x : Double) :
    x.toFloat.toModel.unpack =
      if h : x.mantissa = 0 then .zero x.sign else .finite x.sign x.mantissa x.exponent (Nat.pos_of_ne_zero h) := by
  obtain ⟨b, shape⟩ : ∃ b : BitVec Format.binary64.numBits, b = x.toFloat.toModel.toBits.toBitVec := ⟨_, rfl⟩
  have bits : x.toFloat.toBits.toNat = b.toNat := by rw [shape]; rfl
  have finite : (UnpackedFloat.unpack Format.binary64 b).isFinite = true := by
    rw [shape]
    exact x.finite
  have fraction : (unpackMantissa b).toNat = x.fractionBits := by
    rw [toNat_unpackMantissa, fractionBits, bits]
  have exponent : (unpackExponent b).toNat = x.exponentBits := by
    rw [toNat_unpackExponent, exponentBits, bits]
  have lowest : unpackExponent b = BitVec.ofNat Format.binary64.exponentBits 0 ↔ x.exponentBits = 0 := by
    rw [← BitVec.toNat_inj, exponent]
    rfl
  have blank : unpackMantissa b = BitVec.ofNat Format.binary64.mantissaBitsWithoutImplicit 0 ↔ x.fractionBits = 0 := by
    rw [← BitVec.toNat_inj, fraction]
    rfl
  have unpacked : x.toFloat.toModel.unpack = UnpackedFloat.unpack Format.binary64 b := by
    rw [shape]
    rfl
  rw [unpacked]
  unfold UnpackedFloat.unpack at finite ⊢
  dsimp only at finite ⊢
  rw [unpackSign_eq bits] at finite ⊢
  -- The highest exponent is left to the values that are not finite.
  have notHighest : unpackExponent b ≠ -BitVec.ofNat Format.binary64.exponentBits 1 := by
    intro highest
    rw [if_pos highest] at finite
    by_cases none : unpackMantissa b = BitVec.ofNat Format.binary64.mantissaBitsWithoutImplicit 0
    · rw [if_pos none] at finite
      cases finite
    · rw [if_neg none] at finite
      cases finite
  rw [if_neg notHighest]
  by_cases subnormal : x.exponentBits = 0
  · have mantissa : x.mantissa = x.fractionBits := if_pos subnormal
    have power : x.exponent = -1074 := if_pos subnormal
    rw [if_pos (lowest.2 subnormal)]
    by_cases none : x.fractionBits = 0
    · rw [dif_pos (blank.2 none), dif_pos (mantissa.trans none)]
    · rw [dif_neg (mt blank.1 none), dif_neg (mantissa ▸ none)]
      refine finite_congr (fraction.trans mantissa.symm) ?_
      rw [exponent, subnormal, power]
      rfl
  · have mantissa : x.mantissa = x.fractionBits + 1 <<< 52 := if_neg subnormal
    have power : x.exponent = (x.exponentBits : Int) - 1075 := if_neg subnormal
    have positive : x.mantissa ≠ 0 := by omega
    rw [if_neg (mt lowest.1 subnormal), dif_neg positive]
    refine finite_congr ?_ ?_
    · have leading := toNat_leading (unpackMantissa b)
      rw [fraction] at leading
      exact leading.trans (mantissa.trans (Nat.add_comm _ _)).symm
    · rw [exponent, power]
      rfl

/-- The magnitude of a double. -/
def magnitude (x : Double) : ℚ :=
  x.mantissa * 2 ^ x.exponent

theorem magnitude_nonneg (x : Double) : 0 ≤ x.magnitude := by
  unfold magnitude
  positivity

theorem value_eq (x : Double) : x.value = if x.isNegative then -x.magnitude else x.magnitude := by
  rw [value, unpack_eq, magnitude]
  by_cases none : x.mantissa = 0
  · have nothing : unpackedValue (.zero x.sign) = 0 := rfl
    rw [dif_pos none, nothing, none]
    simp
  · rw [dif_neg none, sign]
    cases x.isNegative <;> rfl

theorem abs_value (x : Double) : |x.value| = x.magnitude := by
  rw [value_eq]
  split
  · rw [abs_neg, abs_of_nonneg x.magnitude_nonneg]
  · exact abs_of_nonneg x.magnitude_nonneg

theorem wholePart_eq (x : Double) : x.wholePart = ⌊x.magnitude⌋₊ := by
  unfold wholePart
  split
  · next whole =>
    obtain ⟨k, shape⟩ := Int.eq_ofNat_of_zero_le whole
    have magnitude : x.magnitude = ((x.mantissa * 2 ^ k : Nat) : ℚ) := by
      rw [magnitude, shape]
      push_cast
      rfl
    rw [magnitude, Nat.floor_natCast, shape, Int.toNat_natCast, Nat.shiftLeft_eq]
  · next broken =>
    obtain ⟨k, shape⟩ := Int.eq_ofNat_of_zero_le (a := -x.exponent) (by omega)
    have magnitude : x.magnitude = (x.mantissa : ℚ) / ((2 ^ k : Nat) : ℚ) := by
      rw [magnitude, show x.exponent = -(k : Int) by omega, zpow_neg, div_eq_mul_inv]
      push_cast
      rfl
    rw [magnitude, Nat.floor_div_eq_div, shape, Int.toNat_natCast, Nat.shiftRight_eq_div_pow]

theorem wholePart_lt_iff (x : Double) (n : Nat) : x.wholePart < n ↔ |x.value| < n := by
  rw [wholePart_eq, abs_value, Nat.floor_lt x.magnitude_nonneg]

/-- A double is truncated to its value without the fraction. -/
theorem truncate_eq (x : Double) : x.truncate = towardZero x.value := by
  have whole : (x.wholePart : ℤ) = ⌊x.magnitude⌋ := by
    rw [wholePart_eq, Int.natCast_floor_eq_floor x.magnitude_nonneg]
  rw [truncate, whole, value_eq]
  split
  · rw [towardZero_neg x.magnitude_nonneg]
  · rw [towardZero_of_nonneg x.magnitude_nonneg]

end Double

end CustomerSegments
