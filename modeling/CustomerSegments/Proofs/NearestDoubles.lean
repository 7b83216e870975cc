import CustomerSegments.Proofs.DoubleOrder
import CustomerSegments.Redis.Server
import Mathlib.Tactic.Ring

namespace CustomerSegments

open Float.Model UnpackedFloat Redis.Server

/-- The quotient by a power of two, rounded to the nearest integer, and to the even one of two. -/
def roundedQuotient (m k : Nat) : Nat :=
  if 2 * (m % 2 ^ k) < 2 ^ k ∨ (2 * (m % 2 ^ k) = 2 ^ k ∧ m / 2 ^ k % 2 = 0) then m / 2 ^ k else m / 2 ^ k + 1

section

variable (m k : Nat)

theorem roundedQuotient_bounds : m / 2 ^ k ≤ roundedQuotient m k ∧ roundedQuotient m k ≤ m / 2 ^ k + 1 := by
  unfold roundedQuotient
  split <;> omega

/-- Zeros at the end of a number do not count. -/
theorem roundedQuotient_shiftLeft (d : Nat) : roundedQuotient (m <<< d) (k + d) = roundedQuotient m k := by
  have scale : 0 < 2 ^ d := Nat.two_pow_pos d
  have quotient : m <<< d / 2 ^ (k + d) = m / 2 ^ k := by
    rw [Nat.shiftLeft_eq, Nat.pow_add, Nat.mul_div_mul_right _ _ scale]
  have below : 2 * (m <<< d % 2 ^ (k + d)) < 2 ^ (k + d) ↔ 2 * (m % 2 ^ k) < 2 ^ k := by
    rw [Nat.shiftLeft_eq, Nat.pow_add, Nat.mul_mod_mul_right, ← Nat.mul_assoc, Nat.mul_lt_mul_right scale]
  have level : 2 * (m <<< d % 2 ^ (k + d)) = 2 ^ (k + d) ↔ 2 * (m % 2 ^ k) = 2 ^ k := by
    rw [Nat.shiftLeft_eq, Nat.pow_add, Nat.mul_mod_mul_right, ← Nat.mul_assoc, Nat.mul_left_inj scale.ne']
  simp only [roundedQuotient, quotient, below, level]

theorem roundedQuotient_zero : roundedQuotient m 0 = m := by
  simp [roundedQuotient, Nat.mod_one]

theorem nearestDouble_eq : nearestDouble m = roundedQuotient m (m.log2 - 52) * 2 ^ (m.log2 - 52) := by
  rw [nearestDouble, Nat.one_shiftLeft]
  rfl

/-- What a shift leaves of a mantissa, the last bit that it drops, and whether any bit behind that one is set. -/
theorem shiftRight_succ :
    (⟨m, false, false⟩ : ExtendedMantissa) >>> (k + 1) =
      ⟨m / 2 ^ (k + 1), m / 2 ^ k % 2 != 0, m % 2 ^ k != 0⟩ := by
  induction k with
  | zero =>
    change ExtendedMantissa.shiftRightOne ⟨m, false, false⟩ = _
    simp [ExtendedMantissa.shiftRightOne, Nat.mod_one]
  | succ k ih =>
    change ExtendedMantissa.shiftRightOne ((⟨m, false, false⟩ : ExtendedMantissa) >>> (k + 1)) = _
    have whole : m / 2 ^ (k + 1) / 2 = m / 2 ^ (k + 1 + 1) := by rw [Nat.div_div_eq_div_mul, ← Nat.pow_succ]
    have behind : m % 2 ^ (k + 1) = m % 2 ^ k + 2 ^ k * (m / 2 ^ k % 2) := Nat.mod_pow_succ
    have positive : 0 < 2 ^ k := Nat.two_pow_pos k
    have sticky : (m / 2 ^ k % 2 != 0 || m % 2 ^ k != 0) = (m % 2 ^ (k + 1) != 0) := by
      rw [behind, Bool.eq_iff_iff]
      simp only [Bool.or_eq_true, bne_iff_ne, ne_eq, Nat.add_eq_zero_iff, Nat.mul_eq_zero]
      omega
    rw [ih, ExtendedMantissa.shiftRightOne, whole, sticky]

/-- The two bits round up unless at most a half was dropped, and less than that from an odd mantissa. -/
theorem roundedMantissa_eq (q : Nat) (next behind : Bool) :
    (⟨q, next, behind⟩ : ExtendedMantissa).roundedMantissa =
      if next = true ∧ (behind = true ∨ q % 2 = 1) then q + 1 else q := by
  cases next with
  | false => cases behind <;> rfl
  | true =>
    cases behind with
    | true => rfl
    | false =>
      change q + q % 2 = _
      simp only [Bool.false_eq_true, false_or, true_and]
      split <;> omega

/-- A shifted mantissa is rounded by the two bits that stand for what was dropped. -/
theorem roundedMantissa_shiftRight :
    ((⟨m, false, false⟩ : ExtendedMantissa) >>> k).roundedMantissa = roundedQuotient m k := by
  cases k with
  | zero => exact (roundedQuotient_zero m).symm
  | succ k =>
    have dropped : m % 2 ^ (k + 1) = m % 2 ^ k + 2 ^ k * (m / 2 ^ k % 2) := Nat.mod_pow_succ
    have double : 2 ^ (k + 1) = 2 * 2 ^ k := Nat.pow_succ'
    have below : m % 2 ^ k < 2 ^ k := Nat.mod_lt _ (Nat.two_pow_pos k)
    rw [shiftRight_succ, roundedMantissa_eq, roundedQuotient]
    simp only [bne_iff_ne]
    obtain clear | set : m / 2 ^ k % 2 = 0 ∨ m / 2 ^ k % 2 = 1 := by omega
    · rw [clear, Nat.mul_zero, Nat.add_zero] at dropped
      rw [if_neg (by omega), if_pos (by omega)]
    · rw [set, Nat.mul_one] at dropped
      rw [set]
      split <;> split <;> omega

end

/-- The exponent that leaves a mantissa of 53 bits. -/
theorem targetExponent_eq {m : Nat} {e : Int} (least : -1074 ≤ m.log2 + e - 52) :
    Format.binary64.targetExponent (totalExponent m e) = m.log2 + e - 52 := by
  have minimum : Format.binary64.minExponent = -1074 := rfl
  have width : Format.binary64.mantissaBits = 53 := rfl
  rw [Format.targetExponent, totalExponent, minimum, width]
  omega

theorem shiftToTargetExponent_eq {m k : Nat} {e : Int} (bits : m.log2 = 52 + k) (least : -1074 ≤ e) :
    shiftToTargetExponent .binary64 m e .exact = ((⟨m, false, false⟩ : ExtendedMantissa) >>> k, e + k) := by
  have distance : (m.log2 + e - 52 - e).toNat = k := by omega
  rw [shiftToTargetExponent, shiftToExponent, targetExponent_eq (by omega), distance]
  rfl

theorem log2_eq_of_full {m : Nat} (full : 2 ^ 52 ≤ m) (short : m < 2 ^ 53) : m.log2 = 52 :=
  (Nat.log2_eq_iff (by omega)).2 ⟨full, short⟩

section

variable {m k : Nat} {e : Int}

theorem quotient_bounds (bits : m.log2 = 52 + k) : 2 ^ 52 ≤ m / 2 ^ k ∧ m / 2 ^ k < 2 ^ 53 := by
  have nonzero : m ≠ 0 := by
    rintro rfl
    rw [Nat.log2_zero] at bits
    omega
  obtain ⟨lower, upper⟩ := (Nat.log2_eq_iff nonzero).1 bits
  exact ⟨(Nat.le_div_iff_mul_le (Nat.two_pow_pos k)).2 (by rwa [← Nat.pow_add]),
    (Nat.div_lt_iff_lt_mul (Nat.two_pow_pos k)).2 (by rwa [← Nat.pow_add, Nat.add_right_comm 52 1 k])⟩

/-- A mantissa that is rounded to 53 bits stays under its exponent. -/
theorem roundWithAccuracy_of_short (bits : m.log2 = 52 + k) (least : -1074 ≤ e) (short : roundedQuotient m k < 2 ^ 53)
    (pos : 0 < roundedQuotient m k) (s : Sign) :
    roundWithAccuracy .binary64 s m e .exact = .finite s (roundedQuotient m k) (e + k) pos := by
  have full := (quotient_bounds bits).1.trans (roundedQuotient_bounds m k).1
  have first := shiftToTargetExponent_eq bits least
  have second := shiftToTargetExponent_eq (e := e + k) (k := 0) (log2_eq_of_full full short) (by omega)
  rw [roundWithAccuracy, first]
  dsimp only
  rw [roundedMantissa_shiftRight, second]
  exact (dif_neg pos.ne').trans (Double.finite_congr rfl (add_zero _))

/-- A mantissa that is rounded up to a power of two drops one more bit. -/
theorem roundWithAccuracy_of_carry (bits : m.log2 = 52 + k) (least : -1074 ≤ e) (carry : roundedQuotient m k = 2 ^ 53)
    (s : Sign) : roundWithAccuracy .binary64 s m e .exact = .finite s (2 ^ 52) (e + k + 1) (by omega) := by
  have first := shiftToTargetExponent_eq bits least
  have second := shiftToTargetExponent_eq (m := 2 ^ 53) (e := e + k) (k := 1) (by decide) (by omega)
  rw [roundWithAccuracy, first]
  dsimp only
  rw [roundedMantissa_shiftRight, carry, second]
  rfl

end

/-- A double with a full mantissa, of a sign and a magnitude. -/
inductive FullDouble (s : Sign) (q : ℚ) : UnpackedFloat → Prop
  | intro {m : Nat} {e : Int} {pos : 0 < m} (full : 2 ^ 52 ≤ m) (short : m < 2 ^ 53) (least : -1022 ≤ e)
      (most : e ≤ 971) (magnitude : (m : ℚ) * 2 ^ e = q) : FullDouble s q (.finite s m e pos)

/-- A mantissa of at least 53 bits is rounded to 53 bits. -/
theorem fullDouble_roundWithAccuracy {m k : Nat} {e : Int} (bits : m.log2 = 52 + k) (placed : -1074 ≤ e)
    (least : -1022 ≤ e + k) (most : e + k ≤ 970) (s : Sign) :
    FullDouble s (roundedQuotient m k * 2 ^ (e + k)) (roundWithAccuracy .binary64 s m e .exact) := by
  obtain ⟨wide, narrow⟩ := quotient_bounds bits
  obtain ⟨atLeast, atMost⟩ := roundedQuotient_bounds m k
  obtain short | carry : roundedQuotient m k < 2 ^ 53 ∨ roundedQuotient m k = 2 ^ 53 := by omega
  · rw [roundWithAccuracy_of_short bits placed short (by omega)]
    exact .intro (wide.trans atLeast) short least (by omega) rfl
  · rw [roundWithAccuracy_of_carry bits placed carry]
    refine .intro le_rfl (by omega) (by omega) (by omega) ?_
    rw [carry, zpow_add_one₀ two_ne_zero]
    push_cast
    ring

theorem ofBitVec_unpackSign (s : Sign) (e : BitVec 11) (m : BitVec 52) :
    Sign.ofBitVec (unpackSign (packComponents .binary64 s e m)) = s := by
  have bit : unpackSign (packComponents .binary64 s e m) = s.toBitVec := by
    change BitVec.extractLsb' 63 1 (s.toBitVec ++ e ++ m) = _
    rw [BitVec.extractLsb'_append_eq_of_le (by omega), BitVec.extractLsb'_append_eq_of_le (by omega)]
    exact BitVec.extractLsb'_eq_self
  rw [bit]
  cases s <;> rfl

/-- An exponent that is neither the lowest nor the highest leads to a mantissa with a leading bit. -/
theorem unpack_of_normal {b : BitVec Format.binary64.numBits} (notHighest : unpackExponent b ≠ -1#11)
    (notLowest : unpackExponent b ≠ 0#11) (pos : 0 < (1#1 ++ unpackMantissa b).toNat) :
    UnpackedFloat.unpack .binary64 b =
      .finite (Sign.ofBitVec (unpackSign b)) (1#1 ++ unpackMantissa b).toNat ((unpackExponent b).toNat - 1075) pos := by
  unfold UnpackedFloat.unpack
  dsimp only
  rw [if_neg notHighest, if_neg notLowest]
  rfl

/-- A full mantissa under an exponent of eleven bits is unpacked to what was packed. -/
theorem unpack_pack_finite {s : Sign} {m : Nat} {e : Int} (pos : 0 < m) (full : 2 ^ 52 ≤ m) (short : m < 2 ^ 53)
    (least : -1074 ≤ e) (most : e ≤ 971) : (Float.Model.pack (.finite s m e pos)).unpack = .finite s m e pos := by
  obtain ⟨b, biased⟩ := Int.eq_ofNat_of_zero_le (a := e + 1075) (by omega)
  have packed : UnpackedFloat.pack .binary64 (.finite s m e pos) =
      packComponents .binary64 s (BitVec.ofNat 11 b) (BitVec.ofNat 52 m) := by
    have bias : (e + Format.binary64.exponentBias + Format.binary64.mantissaBitsWithoutImplicit).toNat = b := by
      change (e + 1023 + 52).toNat = b
      omega
    have finite : ¬ 2 ^ Format.binary64.exponentBits ≤ b + 1 := by
      change ¬ 2048 ≤ b + 1
      omega
    have normal : m.log2 + 1 = Format.binary64.mantissaBits := by
      rw [log2_eq_of_full full short]
      rfl
    unfold UnpackedFloat.pack
    dsimp only
    rw [bias, if_neg finite, if_pos normal]
  have exponent : (BitVec.ofNat 11 b).toNat = b := Nat.mod_eq_of_lt (by omega)
  have notHighest : BitVec.ofNat 11 b ≠ -1#11 := by
    intro highest
    have all := congrArg BitVec.toNat highest
    rw [exponent] at all
    change b = 2047 at all
    omega
  have notLowest : BitVec.ofNat 11 b ≠ 0#11 := by
    intro lowest
    have none := congrArg BitVec.toNat lowest
    rw [exponent] at none
    change b = 0 at none
    omega
  have leading (v : BitVec 52) : 0 < (1#1 ++ v).toNat := by
    rw [Double.toNat_leading]
    omega
  have unpacked := unpack_of_normal (b := packComponents .binary64 s (BitVec.ofNat 11 b) (BitVec.ofNat 52 m))
    (by rwa [unpackExponent_packComponents]) (by rwa [unpackExponent_packComponents]) (leading _)
  change UnpackedFloat.unpack .binary64 (UnpackedFloat.pack .binary64 (.finite s m e pos)) = _
  rw [packed, unpacked, ofBitVec_unpackSign]
  refine Double.finite_congr ?_ ?_
  · rw [unpackMantissa_packComponents, Double.toNat_leading, BitVec.toNat_ofNat]
    omega
  · rw [unpackExponent_packComponents, exponent]
    omega

namespace FullDouble

variable {s : Sign} {q : ℚ} {u : UnpackedFloat}

theorem unpack_pack (full : FullDouble s q u) : (Float.Model.pack u).unpack = u := by
  obtain ⟨full, short, least, most, _⟩ := full
  exact unpack_pack_finite _ full short (by omega) most

theorem canonical (full : FullDouble s q u) : CanonicalDouble u := by
  obtain ⟨full, short, least, _, _⟩ := full
  exact .finite short (.inl full) (by omega)

theorem value (full : FullDouble .positive q u) : unpackedValue u = q := by
  obtain ⟨_, _, _, _, magnitude⟩ := full
  exact magnitude

theorem neg (full : FullDouble .positive q u) : FullDouble .negative q u.neg := by
  obtain ⟨full, short, least, most, magnitude⟩ := full
  exact .intro full short least most magnitude

theorem value_of_negative (full : FullDouble .negative q u) : unpackedValue u = -q := by
  obtain ⟨_, _, _, _, magnitude⟩ := full
  exact congrArg Neg.neg magnitude

end FullDouble

theorem nearestDouble_of_short {m : Nat} (short : m.log2 ≤ 52) : nearestDouble m = m := by
  rw [nearestDouble_eq, Nat.sub_eq_zero_of_le short, roundedQuotient_zero, Nat.pow_zero, Nat.mul_one]

theorem log2_shiftLeft {m : Nat} (positive : m ≠ 0) (d : Nat) : (m <<< d).log2 = m.log2 + d := by
  induction d with
  | zero => rfl
  | succ d ih =>
    have shifted : m <<< d ≠ 0 := by simp [Nat.shiftLeft_eq, positive]
    rw [Nat.shiftLeft_succ, Nat.log2_two_mul shifted, ih, Nat.add_assoc]

/-- A number of at most 53 bits becomes a double by zeros behind it. -/
theorem fullDouble_ofNat_of_short {n : Nat} (positive : n ≠ 0) (short : n.log2 ≤ 52) :
    FullDouble .positive n (UnpackedFloat.ofNat .binary64 n) := by
  obtain ⟨d, width⟩ := Nat.exists_eq_add_of_le short
  have target := targetExponent_eq (m := n) (e := 0) (by omega)
  have distance : (0 - ((n.log2 : Int) + 0 - 52)).toNat = d := by omega
  have bits : (n <<< d).log2 = 52 + 0 := (log2_shiftLeft positive d).trans width.symm
  have made : UnpackedFloat.ofNat .binary64 n = roundWithAccuracy .binary64 .positive (n <<< d) (0 - d) .exact := by
    have above : Ord.compare (n : Int) 0 = .gt := compare_gt_iff_gt.2 (by omega)
    rw [UnpackedFloat.ofNat, UnpackedFloat.ofInt, UnpackedFloat.normalize, above]
    dsimp only
    rw [Int.toNat_natCast, UnpackedFloat.round, target, decreaseExponent, distance]
  have scale : (2 : ℚ) ^ d ≠ 0 := by positivity
  have value : (roundedQuotient (n <<< d) 0 : ℚ) * 2 ^ (0 - (d : Int) + (0 : Nat)) = n := by
    rw [roundedQuotient_zero, Nat.shiftLeft_eq, zero_sub, Nat.cast_zero, add_zero, zpow_neg, zpow_natCast]
    push_cast
    rw [mul_inv_cancel_right₀ scale]
  rw [made, ← value]
  exact fullDouble_roundWithAccuracy bits (by omega) (by omega) (by omega) .positive

/-- A factor of one changes nothing. -/
theorem FullDouble.mul_one {s : Sign} {q : ℚ} {u : UnpackedFloat} (full : FullDouble s q u) :
    UnpackedFloat.mul .binary64 u (.finite .positive 4503599627370496 (-52) (by decide)) = u := by
  obtain @⟨m, e, pos, full, short, least, most, rfl⟩ := full
  have sign : s * .positive = s := by cases s <;> rfl
  have zeros : m <<< 52 = m * 4503599627370496 := Nat.shiftLeft_eq m 52
  have bits : (m * 4503599627370496).log2 = 52 + 52 := by
    rw [← zeros, log2_shiftLeft pos.ne', log2_eq_of_full full short]
  have whole : roundedQuotient (m * 4503599627370496) 52 = m := by
    rw [← zeros]
    exact (roundedQuotient_shiftLeft m 0 52).trans (roundedQuotient_zero m)
  have product := roundWithAccuracy_of_short (e := e + -52) bits (by omega) (by rwa [whole]) (by rwa [whole])
  refine (product (s * .positive)).trans ?_
  rw [sign]
  exact Double.finite_congr whole (by omega)

theorem unpack_one : (Float.ofBits 0x3FF0000000000000).toModel.unpack =
    .finite .positive 4503599627370496 (-52) (by decide) := rfl

theorem unpack_ofNat_of_short {n : Nat} (positive : n ≠ 0) (short : n < 2 ^ 53) :
    (Float.ofNat n).toModel.unpack = UnpackedFloat.ofNat .binary64 n := by
  have bits : n.log2 ≤ 52 := Nat.lt_succ_iff.1 ((Nat.log2_lt positive).2 short)
  have word : n.toUInt64.toNat = n := Nat.mod_eq_of_lt (by omega)
  have plain := fullDouble_ofNat_of_short positive bits
  have made : (Float.ofNat n).toModel =
      Float.Model.pack (UnpackedFloat.ofNat .binary64 n.toUInt64.toNat) *
        (Float.ofBits 0x3FF0000000000000).toModel := by
    change (Float.ofScientific n false 0).toModel = _
    rw [Float.ofScientific, dif_pos ⟨short, by omega⟩]
    rfl
  rw [made, word]
  change (Float.Model.pack (UnpackedFloat.mul .binary64 _ _)).unpack = _
  rw [plain.unpack_pack, unpack_one, plain.mul_one, plain.unpack_pack]

theorem ofNat_of_long {n : Nat} (positive : n ≠ 0) (long : ¬ n < 2 ^ 53) :
    (Float.ofNat n).toModel = Float.Model.pack (roundWithAccuracy .binary64 .positive (n <<< 53) (-53) .exact) := by
  have near : ¬ (0 : Int) < -(2 ^ Format.binary64.exponentBits + n.log2) := by
    change ¬ (0 : Int) < -(2048 + n.log2)
    omega
  have scaled : UnpackedFloat.ofScientific .binary64 n 0 =
      roundWithAccuracy .binary64 .positive (n <<< 53 * 1) (-53 + 0) .exact := by
    rw [UnpackedFloat.ofScientific, dif_neg positive, if_neg (by decide), if_neg near, if_pos le_rfl]
    rfl
  change (Float.ofScientific n false 0).toModel = _
  rw [Float.ofScientific, dif_neg fun small => long small.1]
  change Float.Model.pack (UnpackedFloat.ofScientific .binary64 n 0) = _
  rw [scaled, Nat.mul_one, add_zero]

/-- A natural number becomes the nearest double. -/
theorem fullDouble_ofNat {n : Nat} (positive : n ≠ 0) (small : n.log2 ≤ 64) :
    FullDouble .positive (nearestDouble n) (Float.ofNat n).toModel.unpack := by
  by_cases short : n < 2 ^ 53
  · have bits : n.log2 ≤ 52 := Nat.lt_succ_iff.1 ((Nat.log2_lt positive).2 short)
    rw [unpack_ofNat_of_short positive short, nearestDouble_of_short bits]
    exact fullDouble_ofNat_of_short positive bits
  · have long : 53 ≤ n.log2 := (Nat.le_log2 positive).2 (Nat.le_of_not_lt short)
    have bits : (n <<< 53).log2 = 52 + (n.log2 - 52 + 53) := by
      rw [log2_shiftLeft positive]
      omega
    have rounded := fullDouble_roundWithAccuracy (e := -53) bits (by omega) (by omega) (by omega) .positive
    have value : (roundedQuotient (n <<< 53) (n.log2 - 52 + 53) : ℚ) * 2 ^ (-53 + ((n.log2 - 52 + 53 : Nat) : Int)) =
        nearestDouble n := by
      rw [roundedQuotient_shiftLeft, nearestDouble_eq, Nat.cast_add, Nat.cast_ofNat, neg_add_cancel_comm_assoc,
        zpow_natCast]
      push_cast
      rfl
    rw [ofNat_of_long positive short, rounded.unpack_pack, ← value]
    exact rounded

/-- The integer that the double nearest to an integer is. -/
def nearestInteger : Int → Int
  | .ofNat n => nearestDouble n
  | .negSucc n => -nearestDouble (n + 1)

namespace Integer

theorem unpack_toFloat (n : Integer) :
    CanonicalDouble n.toFloat.toModel.unpack ∧ unpackedValue n.toFloat.toModel.unpack = nearestInteger n.val := by
  have fits := n.fits
  have small {m : Nat} (positive : m ≠ 0) (most : m < 2 ^ 65) : m.log2 ≤ 64 :=
    Nat.lt_succ_iff.1 ((Nat.log2_lt positive).2 most)
  rw [toFloat]
  cases sign : n.val with
  | ofNat m =>
    rw [sign] at fits
    have most : m < 18446744073709551616 := Int.ofNat_lt.1 fits.2
    cases m with
    | zero => exact ⟨.zero .positive, (Int.cast_zero).symm⟩
    | succ m =>
      have full := fullDouble_ofNat (Nat.succ_ne_zero m) (small (Nat.succ_ne_zero m) (by omega))
      exact ⟨full.canonical, full.value⟩
  | negSucc m =>
    rw [sign] at fits
    have full := (fullDouble_ofNat (Nat.succ_ne_zero m) (small (Nat.succ_ne_zero m) (by omega))).neg
    have turned : (Float.ofInt (.negSucc m)).toModel.unpack = (Float.ofNat (m + 1)).toModel.unpack.neg :=
      full.unpack_pack
    rw [turned]
    refine ⟨full.canonical, full.value_of_negative.trans ?_⟩
    rw [nearestInteger]
    push_cast
    rfl

/-- Integers are compared as the doubles nearest to them. -/
theorem compareFloats_eq (a b : Integer) :
    compareFloats a.toFloat b.toFloat = some (Ord.compare (nearestInteger a.val) (nearestInteger b.val)) := by
  obtain ⟨canonical, value⟩ := unpack_toFloat a
  obtain ⟨canonical', value'⟩ := unpack_toFloat b
  rw [CustomerSegments.compareFloats_eq canonical canonical', value, value']
  rcases lt_trichotomy (nearestInteger a.val) (nearestInteger b.val) with below | level | above
  · rw [compare_lt_iff_lt.2 below, compare_lt_iff_lt.2 (Int.cast_lt.2 below)]
  · rw [compare_eq_iff_eq.2 level, compare_eq_iff_eq.2 (congrArg Int.cast level)]
  · rw [compare_gt_iff_gt.2 above, compare_gt_iff_gt.2 (Int.cast_lt.2 above)]

theorem beq_toFloat (a b : Integer) :
    (a.toFloat == b.toFloat) = decide (nearestInteger a.val = nearestInteger b.val) := by
  obtain ⟨canonical, value⟩ := unpack_toFloat a
  obtain ⟨canonical', value'⟩ := unpack_toFloat b
  rw [Bool.eq_iff_iff, float_beq_iff, canonical.compare_eq canonical', Option.some.injEq, compare_eq_iff_eq, value,
    value', Int.cast_inj, decide_eq_true_eq]

end Integer

section

variable {m n : Nat}

theorem roundedQuotient_mono (k : Nat) (most : m ≤ n) : roundedQuotient m k ≤ roundedQuotient n k := by
  have quotients : m / 2 ^ k ≤ n / 2 ^ k := Nat.div_le_div_right most
  obtain below | level := quotients.lt_or_eq
  · have upper := (roundedQuotient_bounds m k).2
    have lower := (roundedQuotient_bounds n k).1
    omega
  · have whole := Nat.div_add_mod m (2 ^ k)
    have whole' := Nat.div_add_mod n (2 ^ k)
    rw [level] at whole
    simp only [roundedQuotient, level]
    split <;> split <;> omega

/-- Rounding stays between the powers of two around a number. -/
theorem nearestDouble_bounds (positive : n ≠ 0) :
    2 ^ n.log2 ≤ nearestDouble n ∧ nearestDouble n ≤ 2 ^ (n.log2 + 1) := by
  obtain ⟨lower, upper⟩ := (Nat.log2_eq_iff positive).1 rfl
  obtain short | ⟨k, long⟩ : n.log2 ≤ 52 ∨ ∃ k, n.log2 = 52 + k :=
    (le_total n.log2 52).imp id Nat.exists_eq_add_of_le
  · rw [nearestDouble_of_short short]
    exact ⟨lower, upper.le⟩
  · have quotient := quotient_bounds long
    have rounded := roundedQuotient_bounds n k
    rw [nearestDouble_eq, long, Nat.add_sub_cancel_left, Nat.add_right_comm, Nat.pow_add, Nat.pow_add]
    exact ⟨Nat.mul_le_mul_right _ (by omega), Nat.mul_le_mul_right _ (by omega)⟩

theorem nearestDouble_mono (most : m ≤ n) : nearestDouble m ≤ nearestDouble n := by
  by_cases zero : m = 0
  · rw [zero, nearestDouble_of_short (by decide)]
    exact Nat.zero_le _
  obtain same | fewer : m.log2 = n.log2 ∨ m.log2 < n.log2 := by
    have lower := Nat.log2_self_le zero
    have widths := (Nat.le_log2 (n := n) (by omega)).2 (lower.trans most)
    omega
  · rw [nearestDouble_eq, nearestDouble_eq, same]
    exact Nat.mul_le_mul_right _ (roundedQuotient_mono _ most)
  · calc
      nearestDouble m ≤ 2 ^ (m.log2 + 1) := (nearestDouble_bounds zero).2
      _ ≤ 2 ^ n.log2 := Nat.pow_le_pow_right two_pos fewer
      _ ≤ nearestDouble n := (nearestDouble_bounds (by omega)).1

/-- Rounding never moves a number across another one. -/
theorem nearestInteger_mono {a b : Int} (most : a ≤ b) : nearestInteger a ≤ nearestInteger b := by
  cases a with
  | ofNat m =>
    cases b with
    | ofNat n => exact Int.ofNat_le.2 (nearestDouble_mono (Int.ofNat_le.1 most))
    | negSucc n =>
      have crossed : 0 ≤ Int.negSucc n := (Int.natCast_nonneg m).trans most
      exact absurd crossed (Int.negSucc_not_nonneg n).1
  | negSucc m =>
    cases b with
    | ofNat n =>
      have below : -(nearestDouble (m + 1) : Int) ≤ nearestDouble n := by omega
      exact below
    | negSucc n =>
      have magnitudes : nearestDouble (n + 1) ≤ nearestDouble (m + 1) := nearestDouble_mono (by omega)
      exact neg_le_neg (Int.ofNat_le.2 magnitudes)

theorem nearestInteger_of_short {a : Int} (short : a.natAbs < 2 ^ 53) : nearestInteger a = a := by
  have exact {m : Nat} (short : m < 2 ^ 53) : nearestDouble m = m := by
    by_cases zero : m = 0
    · rw [zero, nearestDouble_of_short (by decide)]
    · exact nearestDouble_of_short (Nat.lt_succ_iff.1 ((Nat.log2_lt zero).2 short))
  cases a with
  | ofNat m => exact congrArg Int.ofNat (exact short)
  | negSucc m => exact congrArg (fun n : Nat => -(n : Int)) (exact (m := m + 1) short)

/-- Two integers that become one double both have more than 53 bits. -/
theorem eq_of_nearestInteger_eq {a b : Int} (short : a.natAbs < 2 ^ 53) (same : nearestInteger a = nearestInteger b) :
    a = b := by
  by_cases short' : b.natAbs < 2 ^ 53
  · rwa [nearestInteger_of_short short, nearestInteger_of_short short'] at same
  rw [nearestInteger_of_short short] at same
  have highest : nearestInteger (2 ^ 53) = 2 ^ 53 := by decide +kernel
  have lowest : nearestInteger (-2 ^ 53) = -2 ^ 53 := by decide +kernel
  obtain above | below : 2 ^ 53 ≤ b ∨ b ≤ -2 ^ 53 := by omega
  · have beyond := nearestInteger_mono above
    omega
  · have beyond := nearestInteger_mono below
    omega

end

end CustomerSegments
